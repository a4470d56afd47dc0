import Forail.Models.SavedPrompts

/-!
# Each host once

The jobs of a sliced launch have the prompts of one that is not sliced, and the inventories
that they are given share the enabled hosts out among them.
-/

namespace Forail.SlicedLaunches

open Forail.FactCache Forail.Grouping Forail.Json Forail.Surveys Forail.LaunchPrompts
open Forail.InventoryScript Forail.SlicedHosts

def launch (env : Installation) (template : JobTemplate) (kwargs : Prompts)
    (fields : LaunchFields) (preventSlicing : Bool) : UnifiedJob :=
  createUnifiedJob env template kwargs
    { fields with jobSliceNumber := none, jobSliceCount := none } preventSlicing

/-- The fields of two jobs that a launch can ask for are the same; groups that are preferred
twice are preferred where they come first. -/
structure SamePrompts (job other : Job) : Prop where
  chars : job.chars = other.chars
  inventory : job.inventory = other.inventory
  executionEnvironment : job.executionEnvironment = other.executionEnvironment
  credentials : job.credentials = other.credentials
  labels : job.labels = other.labels
  instanceGroups : firsts job.preferredInstanceGroupsCache =
    firsts other.preferredInstanceGroupsCache
  extraVars : ∀ key, job.extraVars.lookup key = other.extraVars.lookup key
  surveyPasswords : ∀ key, job.surveyPasswords.lookup key = other.surveyPasswords.lookup key

def scriptParams (job : Job) : InventoryScript.Options where
  hostvars := true
  towervars := true
  showAll := false
  sliceNumber := job.jobSliceNumber
  sliceCount := job.jobSliceCount

def buildInventory (env : Installation) (job : Job) : Option (Dict String Info) :=
  job.inventory.map fun inventory =>
    getScriptData env.tables (env.inventories inventory) (scriptParams job)

def givenHosts (env : Installation) (job : Job) : List String :=
  ((buildInventory env job).bind metaHostvars).elim [] AList.keys

def enabledHosts (env : Installation) (inventory : InventoryId) : List String :=
  ((env.inventories inventory).enabledHosts env.tables.toDatabase).map Host.name

/-- The jobs of `sliceCt` slices, one for each, which are given the enabled hosts together and
stay slices when they are launched again. -/
structure SharesHosts (env : Installation) (template : JobTemplate) (inventory : InventoryId)
    (unsliced : Job) (sliceCt : ℕ) (jobs : List Job) : Prop where
  numbers : jobs.map Job.jobSliceNumber = List.range' 1 sliceCt
  counts : ∀ job ∈ jobs, job.jobSliceCount = sliceCt
  prompts : ∀ job ∈ jobs, SamePrompts job unsliced
  again : ∀ job ∈ jobs, ∀ newPrompts fields, ∃ relaunched,
    job.copyUnifiedJob env template newPrompts fields = .job relaunched ∧
    relaunched.jobSliceNumber = job.jobSliceNumber ∧
    relaunched.jobSliceCount = job.jobSliceCount
  hosts : (jobs.flatMap (givenHosts env)).Perm (enabledHosts env inventory)

/-- A launch runs each enabled host of its inventory once, in one job or in slices. -/
def RunsEachHostOnce (env : Installation) (template : JobTemplate) (kwargs : Prompts)
    (fields : LaunchFields) : Prop :=
  ∃ inventory unsliced, template.actualInventory kwargs = some inventory ∧
    launch env template kwargs fields true = .job unsliced ∧
    (enabledHosts env inventory).Nodup ∧
    match launch env template kwargs fields false with
    | .job job => SamePrompts job unsliced ∧
        (givenHosts env job).Perm (enabledHosts env inventory)
    | .workflowJob workflowJob => ∃ sliceCt jobs,
        sliceCt = min (template.actualSliceCount kwargs)
          ((env.inventories inventory).hosts env.tables.toDatabase).length ∧
        2 ≤ sliceCt ∧ workflowJob.nodes.length = sliceCt ∧
        spawnedJobs env template workflowJob = jobs.map .job ∧
        SharesHosts env template inventory unsliced sliceCt jobs

variable {env : Installation} {template : JobTemplate} {kwargs again : Prompts}

/-! ## The prompted values -/

theorem firsts_firsts {α : Type} [DecidableEq α] (items : List α) :
    firsts (firsts items) = firsts items := by
  rw [firsts, firsts, List.reverse_reverse, List.dedup_idem]

theorem firsts_eq_nil_iff {α : Type} [DecidableEq α] {items : List α} :
    firsts items = [] ↔ items = [] := by
  rw [firsts, List.reverse_eq_nil_iff, List.dedup_eq_nil, List.reverse_eq_nil_iff]

theorem startsWith_append (mark text : String) : startsWith mark (mark ++ text) = true := by
  rw [startsWith, String.toList_append, List.isPrefixOf_iff_prefix]
  exact List.prefix_append ..

theorem encryptValue_str {surveys : Surroundings} {text : String}
    (htext : text = "" ∨ startsWith encryptedMark text = true) :
    encryptValue surveys (.str text) = .str text := if_pos htext

theorem encryptValue_encryptValue (surveys : Surroundings) (value : Value) :
    encryptValue surveys (encryptValue surveys value) = encryptValue surveys value := by
  have hencrypted : ∀ text, encryptValue surveys
      (if text = "" ∨ startsWith encryptedMark text = true then .str text
      else .str (encryptedMark ++ "UTF8$AESCBC$" ++ surveys.encrypt text)) =
        if text = "" ∨ startsWith encryptedMark text = true then .str text
        else .str (encryptedMark ++ "UTF8$AESCBC$" ++ surveys.encrypt text) := by
    intro text
    split
    · next hplain => exact encryptValue_str hplain
    · rw [String.append_assoc]
      exact encryptValue_str (.inr (startsWith_append _ _))
  cases value with
  | null => rfl
  | _ => exact hencrypted _

theorem launchedValue_launchedValue (surveys : Surroundings) (survey : SurveyTemplate)
    (key : String) (value : Value) :
    (launchedValue surveys survey key value).bind (launchedValue surveys survey key) =
      launchedValue surveys survey key value := by
  by_cases hpassword : key ∈ survey.surveyPasswordVariables
  · have hagain := encryptValue_encryptValue surveys value
    simp only [launchedValue, if_pos hpassword]
    generalize encryptValue surveys value = encrypted at hagain ⊢
    cases encrypted with
    | str text =>
      dsimp only
      split
      · rfl
      · next hmark =>
        rw [Option.bind_some, launchedValue, if_pos hpassword, hagain]
        exact if_neg hmark
    | _ => rw [Option.bind_some, launchedValue, if_pos hpassword, hagain]
  · simp only [launchedValue, if_neg hpassword, Option.bind_some]

theorem lookup_createUnifiedJob_passed (surveys : Surroundings) (survey : SurveyTemplate)
    {runtime passed : Vars}
    (hpassed : ∀ key, passed.lookup key = (survey.passedVars surveys runtime).lookup key)
    (key : String) :
    (survey.createUnifiedJob surveys passed).lookup key =
      (survey.createUnifiedJob surveys runtime).lookup key := by
  rw [lookup_createUnifiedJob, lookup_createUnifiedJob, hpassed, lookup_passedVars,
    Option.bind_assoc]
  refine congrArg (Option.or · _) (congrArg (Option.bind _) ?_)
  funext value
  exact launchedValue_launchedValue surveys survey key value

theorem lookup_newJobPasswords (template : JobTemplate) (kwargs : Prompts) (key : String) :
    (newJobPasswords template kwargs).lookup key =
      if key ∈ template.survey.surveyPasswordVariables then some replaceStr
      else (kwargs.surveyPasswords.getD ∅).lookup key :=
  lookup_assignAll_const _ _ _ _

theorem lookup_uniqueDict_of_perm {given prompted : List CredentialId} {key : String}
    (hcredentials : (prompted.map fun credential =>
      (env.credentials credential).uniqueHash).Nodup) (hperm : given.Perm prompted) :
    (env.uniqueDict given).lookup key = (env.uniqueDict prompted).lookup key :=
  (lookup_assignAll_of_perm hperm.symm hcredentials ∅ key).symm

theorem mem_combinedCredentials {prompted : List CredentialId} {credential : CredentialId} :
    credential ∈ (env.layered template.credentials prompted).entries.map Sigma.snd ↔
      ∃ key, ((env.uniqueDict prompted).lookup key).or
        ((env.uniqueDict template.credentials).lookup key) = some credential := by
  rw [mem_values]
  exact exists_congr fun key => by rw [Installation.layered, lookup_combined]

theorem toFinset_combinedCredentials
    (hcredentials : ((kwargs.credentials.getD []).map fun credential =>
      (env.credentials credential).uniqueHash).Nodup)
    (hperm : Option.Rel List.Perm again.credentials kwargs.credentials) :
    ((combinedCredentials env template again).getD template.credentials).toFinset =
      ((combinedCredentials env template kwargs).getD template.credentials).toFinset := by
  rw [combinedCredentials, combinedCredentials]
  generalize kwargs.credentials = prompted at hcredentials hperm ⊢
  generalize again.credentials = given at hperm ⊢
  cases hperm with
  | none => rfl
  | some hperm =>
    rename_i given prompted
    rw [Option.getD_some] at hcredentials
    simp only [Option.map_some, Option.getD_some]
    by_cases hnone : prompted = []
    · rw [if_pos hnone, if_pos (List.perm_nil.mp (hnone ▸ hperm))]
    · rw [if_neg hnone, if_neg fun hnil => hnone (List.perm_nil.mp (hnil ▸ hperm).symm)]
      ext credential
      rw [List.mem_toFinset, List.mem_toFinset, mem_combinedCredentials, mem_combinedCredentials]
      apply exists_congr
      intro key
      rw [lookup_uniqueDict_of_perm hcredentials hperm]

theorem Retaken.samePrompts (hretaken : Retaken env template kwargs again)
    (hcredentials : ((kwargs.credentials.getD []).map fun credential =>
      (env.credentials credential).uniqueHash).Nodup) (eager other : EagerFields) :
    SamePrompts (spawnJob env template again eager) (spawnJob env template kwargs other) := by
  constructor
  · funext field
    exact congrArg (Option.getD · _) (congrFun hretaken.chars field)
  · exact congrArg (Option.getD · _) hretaken.inventory
  · exact congrArg (Option.or · _) hretaken.executionEnvironment
  · exact toFinset_combinedCredentials hcredentials hretaken.credentials
  · ext label
    simp only [spawnJob, List.mem_toFinset]
    exact hretaken.labels label
  · have hgroups := hretaken.instanceGroups
    have hinventory := hretaken.inventory
    simp only [spawnJob, hgroups, hinventory, firsts_eq_nil_iff]
    split
    · rfl
    · exact firsts_firsts _
  · exact lookup_createUnifiedJob_passed env.surveys template.survey hretaken.extraVars
  · intro key
    change (newJobPasswords template again).lookup key =
      (newJobPasswords template kwargs).lookup key
    rw [lookup_newJobPasswords, hretaken.surveyPasswords, lookup_newJobPasswords]
    split
    · rfl
    · rfl

theorem samePrompts_spawnJob (eager other : EagerFields) :
    SamePrompts (spawnJob env template kwargs eager) (spawnJob env template kwargs other) where
  chars := rfl
  inventory := rfl
  executionEnvironment := rfl
  credentials := rfl
  labels := rfl
  instanceGroups := rfl
  extraVars _ := rfl
  surveyPasswords _ := rfl

/-! ## The hosts -/

theorem metaHostvars_getScriptData {tables : Tables} {inventory : Inventory String}
    {options : InventoryScript.Options} (hhostvars : options.hostvars = true) :
    metaHostvars (getScriptData tables inventory options) =
      some (allHostVars tables inventory options) := by
  rw [metaHostvars, getScriptData, if_pos hhostvars, AList.lookup_insert]
  rfl

theorem givenHosts_perm {job : Job} {inventory : InventoryId}
    (hinventory : job.inventory = some inventory) :
    (givenHosts env job).Perm
      (getSlicedHosts (enabledHosts env inventory) job.jobSliceNumber job.jobSliceCount) := by
  have hsliced : allHostnames env.tables (env.inventories inventory) (scriptParams job) =
      getSlicedHosts (enabledHosts env inventory) job.jobSliceNumber job.jobSliceCount := by
    rw [allHostnames, slicedHosts, queriedHosts_eq_enabledHosts rfl, map_getSlicedHosts]
    rfl
  have hnames : (allHostnames env.tables (env.inventories inventory) (scriptParams job)).Nodup :=
    List.pairwise_map.mpr
      ((pairwise_queriedHosts.sublist (getSlicedHosts_sublist _ _ _)).imp ne_of_lt)
  rw [givenHosts, buildInventory, hinventory, Option.map_some, Option.bind_some,
    metaHostvars_getScriptData rfl, Option.elim_some, ← hsliced,
    List.perm_ext_iff_of_nodup (AList.keys_nodup _) hnames]
  exact fun name => mem_allHostVars

theorem nodup_enabledHosts (env : Installation) (inventory : InventoryId) :
    (enabledHosts env inventory).Nodup := by
  have hqueried := @pairwise_queriedHosts env.tables (env.inventories inventory)
    ⟨true, true, false, 0, 1⟩
  rw [queriedHosts_eq_enabledHosts rfl] at hqueried
  exact List.pairwise_map.mpr (hqueried.imp ne_of_lt)

/-! ## The slices -/

theorem createUnifiedJob_prevented (eager : EagerFields) :
    createUnifiedJob env template kwargs eager true =
      .job (spawnJob env template kwargs
        { eager with jobSliceCount := some (eager.jobSliceCount.getD 1) }) := by
  simp only [createUnifiedJob, Bool.true_eq_false, and_false, if_false, if_true]

theorem sliceNumber_sliceNode (index : ℕ) :
    sliceNumber (sliceNode index).ancestorArtifacts = some (index + 1) := by
  rw [sliceNumber, sliceNode, lookup_singleton, if_pos rfl]
  exact congrArg some (Int.toNat_natCast _)

def sliceRun (env : Installation) (template : JobTemplate) (workflowJob : WorkflowJob)
    (index : ℕ) : Job :=
  spawnJob env template (getJobKwargs env template workflowJob (sliceNode index) []).prompts
    { launchType := some "workflow"
      createdBy := workflowJob.createdBy
      allowSimultaneous := some true
      jobSliceNumber := some (index + 1)
      jobSliceCount := some workflowJob.nodes.length }

theorem spawned_sliceNode (workflowJob : WorkflowJob) (index : ℕ) :
    createUnifiedJob env template
      (getJobKwargs env template workflowJob (sliceNode index) []).prompts
      (getJobKwargs env template workflowJob (sliceNode index) []).eagerFields
      (getJobKwargs env template workflowJob (sliceNode index) []).preventSlicing =
        .job (sliceRun env template workflowJob index) := by
  have hprevent : (getJobKwargs env template workflowJob (sliceNode index) []).preventSlicing =
      (sliceNumber (sliceNode index).ancestorArtifacts).isSome := rfl
  have heager : (getJobKwargs env template workflowJob (sliceNode index) []).eagerFields =
      let slice := sliceNumber (sliceNode index).ancestorArtifacts
      { launchType := some "workflow"
        createdBy := workflowJob.createdBy
        allowSimultaneous := slice.map fun _ => true
        jobSliceNumber := slice
        jobSliceCount := slice.map fun _ => workflowJob.nodes.length } := rfl
  rw [hprevent, heager, sliceNumber_sliceNode, Option.isSome_some, createUnifiedJob_prevented]
  rfl

theorem copyUnifiedJob_slice (job : Job) (newPrompts : Prompts) (fields : LaunchFields) :
    ∃ relaunched, job.copyUnifiedJob env template newPrompts fields = .job relaunched ∧
      relaunched.jobSliceNumber = job.jobSliceNumber ∧
      relaunched.jobSliceCount = job.jobSliceCount :=
  ⟨_, createUnifiedJob_prevented _, rfl, rfl⟩

theorem sharesHosts_spawnWorkflowJob (haccepted : Accepted env template kwargs)
    (eager other : EagerFields) {sliceCt : ℕ} (hmany : 1 ≤ sliceCt) {inventory : InventoryId}
    (hinventory : template.actualInventory kwargs = some inventory) :
    SharesHosts env template inventory (spawnJob env template kwargs other) sliceCt
      ((List.range sliceCt).map
        (sliceRun env template (spawnWorkflowJob env template kwargs eager sliceCt))) := by
  have hcount : (spawnWorkflowJob env template kwargs eager sliceCt).nodes.length = sliceCt := by
    rw [spawnWorkflowJob, List.length_map, List.length_range]
  have hprompts : ∀ index, SamePrompts
      (sliceRun env template (spawnWorkflowJob env template kwargs eager sliceCt) index)
      (spawnJob env template kwargs other) := fun index =>
    (retaken_getJobKwargs haccepted rfl index).samePrompts haccepted.credentials _ _
  constructor
  · rw [List.map_map, List.range'_eq_map_range]
    refine List.map_congr_left fun index _ => ?_
    exact Nat.add_comm index 1
  · intro job hjob
    obtain ⟨index, -, rfl⟩ := List.mem_map.mp hjob
    exact hcount
  · intro job hjob
    obtain ⟨index, -, rfl⟩ := List.mem_map.mp hjob
    exact hprompts index
  · exact fun job _ newPrompts fields => copyUnifiedJob_slice job newPrompts fields
  · have hgiven : ∀ index, (givenHosts env
        (sliceRun env template (spawnWorkflowJob env template kwargs eager sliceCt) index)).Perm
          (getSlicedHosts (enabledHosts env inventory) (index + 1) sliceCt) := by
      intro index
      have hperm := @givenHosts_perm env _ inventory
        ((hprompts index).inventory.trans (haccepted.actualInventory.symm.trans hinventory))
      have hnumber : (sliceRun env template (spawnWorkflowJob env template kwargs eager sliceCt)
          index).jobSliceCount = sliceCt := hcount
      rwa [hnumber] at hperm
    rw [List.flatMap_map]
    refine (List.Perm.flatMap_left _ fun index _ => hgiven index).trans ?_
    have hslices := flatMap_getSlicedHosts_perm hmany (enabledHosts env inventory)
    rw [List.range'_eq_map_range, List.flatMap_map] at hslices
    simpa only [Nat.add_comm 1] using hslices

theorem givenHosts_unsliced (haccepted : Accepted env template kwargs) {inventory : InventoryId}
    (hinventory : template.actualInventory kwargs = some inventory) {eager : EagerFields}
    (hnumber : eager.jobSliceNumber = none) :
    (givenHosts env (spawnJob env template kwargs eager)).Perm (enabledHosts env inventory) := by
  have hnone : (spawnJob env template kwargs eager).jobSliceNumber = 0 := by
    rw [spawnJob, hnumber]
    rfl
  have hperm := @givenHosts_perm env (spawnJob env template kwargs eager) inventory
    (haccepted.actualInventory.symm.trans hinventory)
  rwa [hnone, getSlicedHosts, if_neg fun hsliced => absurd hsliced.2 (Nat.lt_irrefl 0)] at hperm

theorem launch_sliced (fields : LaunchFields)
    (hsliced : 1 < template.getEffectiveSliceCt env kwargs) :
    launch env template kwargs fields false =
      .workflowJob (spawnWorkflowJob env template kwargs
        { fields with jobSliceNumber := none, jobSliceCount := none }
        (template.getEffectiveSliceCt env kwargs)) :=
  if_pos ⟨hsliced, rfl⟩

theorem launch_unsliced (fields : LaunchFields)
    (hunsliced : ¬1 < template.getEffectiveSliceCt env kwargs) :
    ∃ eager : EagerFields, eager.jobSliceNumber = none ∧
      launch env template kwargs fields false = .job (spawnJob env template kwargs eager) := by
  rw [launch, createUnifiedJob]
  dsimp only
  rw [if_neg fun hsliced => hunsliced hsliced.1]
  split
  · exact ⟨_, rfl, rfl⟩
  · exact ⟨_, rfl, if_neg Bool.false_ne_true⟩

/-- Every accepted launch runs each enabled host of its inventory once. -/
theorem accepted_launch_runs_each_host_once (haccepted : Accepted env template kwargs)
    (fields : LaunchFields) : RunsEachHostOnce env template kwargs fields := by
  obtain ⟨inventory, hinventory⟩ := haccepted.exists_inventory
  have heffective : template.getEffectiveSliceCt env kwargs =
      min (template.actualSliceCount kwargs)
        ((env.inventories inventory).hosts env.tables.toDatabase).length := by
    rw [JobTemplate.getEffectiveSliceCt, hinventory]
  refine ⟨inventory, _, hinventory, createUnifiedJob_prevented _,
    nodup_enabledHosts env inventory, ?_⟩
  by_cases hsliced : 1 < template.getEffectiveSliceCt env kwargs
  · rw [launch_sliced fields hsliced]
    refine ⟨_, _, heffective, hsliced, ?_, ?_,
      sharesHosts_spawnWorkflowJob haccepted
        { fields with jobSliceNumber := none, jobSliceCount := none } _ hsliced.le hinventory⟩
    · rw [spawnWorkflowJob, List.length_map, List.length_range]
    · rw [spawnedJobs, List.map_map]
      exact (List.map_map ..).trans
        (List.map_congr_left fun index _ => spawned_sliceNode _ index)
  · obtain ⟨eager, hnumber, hlaunch⟩ := launch_unsliced fields hsliced
    rw [hlaunch]
    exact ⟨samePrompts_spawnJob _ _, givenHosts_unsliced haccepted hinventory hnumber⟩

def sampleInstallation : Installation where
  surveys :=
    { texts := ⟨fun _ => "", fun _ => ""⟩
      readers := ⟨fun _ => .error .valueError, fun _ => none⟩
      encrypt := id
      decrypt := id
      resolve := fun _ => [] }
  tables := sampleTables
  inventories _ := sampleInventory.toInventory
  pendingDeletion _ := false
  credentials credential := ⟨toString credential, "Machine", "deploy", "ssh", []⟩
  setOrder := id
  rowOrder := id
  setOrder_perm := List.Perm.refl
  rowOrder_perm := List.Perm.refl

def sampleTemplate : JobTemplate where
  chars
    | .diffMode => false
    | .verbosity => (0 : ℕ)
    | .forks => (0 : ℕ)
    | .timeout => (0 : ℤ)
    | .jobType => "run"
    | .limit | .scmBranch | .jobTags | .skipTags => ""
  askChars field := field = .limit
  jobSliceCount := 1
  askJobSliceCount := true
  inventory := some 1
  askInventory := false
  executionEnvironment := none
  askExecutionEnvironment := false
  credentials := [1]
  askCredential := true
  labels := []
  askLabels := false
  askInstanceGroups := false
  preferredInstanceGroups _ := [1]
  survey := ⟨false, [], false, ∅, "Job Template"⟩
  project := some ⟨"main", false, none⟩
  allowSimultaneous := false

def sampleLaunch : Prompts :=
  { Prompts.none with
    chars := fun
      | .limit => some "web"
      | _ => none
    jobSliceCount := some 5
    credentials := some [1, 2] }

def samplePrompts : Prompts :=
  (sampleTemplate.acceptOrIgnoreJobKwargs sampleInstallation ["prompts"] sampleLaunch).prompted

theorem accepted_launch_runs_each_host_once_sample :
    sampleTemplate.getEffectiveSliceCt sampleInstallation samplePrompts = 3 ∧
      samplePrompts.credentials = some [2] ∧
      RunsEachHostOnce sampleInstallation sampleTemplate samplePrompts ⟨none, none, none⟩ :=
  ⟨by decide, by decide, accepted_launch_runs_each_host_once
    ⟨⟨["prompts"], sampleLaunch, rfl⟩, by decide, by decide⟩ ⟨none, none, none⟩⟩

end Forail.SlicedLaunches
