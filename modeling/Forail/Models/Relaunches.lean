import Forail.Models.SlicedRuns

/-!
# Jobs that are launched again

A job that is launched again takes its prompts from the launch configuration that was saved
with it.  What is saved comes to the same job each time, however often it is taken up.
-/

namespace Forail.SlicedLaunches

open Forail.FactCache Forail.Grouping Forail.Json Forail.Surveys Forail.LaunchPrompts

/-! ## Launching again -/

section Relaunching

variable (env : Installation) (template : JobTemplate)

def WorkflowJob.copyUnifiedJob (workflowJob : WorkflowJob) (newPrompts : Prompts)
    (fields : LaunchFields) : UnifiedJob :=
  createUnifiedJob env template
    (updatePrompts (workflowJob.launchConfig.promptsDict env) newPrompts)
    { fields with
      launchType := some "relaunch"
      jobSliceNumber := none
      jobSliceCount := none } false

def UnifiedJob.copyUnifiedJob (newPrompts : Prompts) (fields : LaunchFields) :
    UnifiedJob → UnifiedJob
  | .job run => run.copyUnifiedJob env template newPrompts fields
  | .workflowJob run => run.copyUnifiedJob env template newPrompts fields

/-- The job behind relaunches without prompts of their own, each with its fields. -/
def relaunch (launched : UnifiedJob) (relaunches : List LaunchFields) : UnifiedJob :=
  relaunches.foldl (fun job fields =>
    UnifiedJob.copyUnifiedJob env template Prompts.none fields job) launched

end Relaunching

def PromptsAccepted (env : Installation) (template : JobTemplate) (kwargs : Prompts) : Prop :=
  ∃ excludeErrors given, kwargs =
    { (template.acceptOrIgnoreJobKwargs env excludeErrors given).prompted with
      extraVars := kwargs.extraVars
      surveyPasswords := kwargs.surveyPasswords }

/-- The job has the prompts and the slice of another one.  Groups that were prompted more than
once are left where they come first. -/
structure Reproduces (again job : Job) : Prop extends SamePrompts again job where
  groups : again.preferredInstanceGroupsCache = job.preferredInstanceGroupsCache ∨
    again.preferredInstanceGroupsCache = firsts job.preferredInstanceGroupsCache
  jobSliceNumber : again.jobSliceNumber = job.jobSliceNumber
  jobSliceCount : again.jobSliceCount = job.jobSliceCount

/-- Launch configurations with the same values, where sets may be listed in another order. -/
structure SameConfig (again config : LaunchConfig) : Prop where
  chars : again.chars = config.chars
  jobSliceCount : again.jobSliceCount = config.jobSliceCount
  inventory : again.inventory = config.inventory
  executionEnvironment : again.executionEnvironment = config.executionEnvironment
  credentials : again.credentials.Perm config.credentials
  labels : again.labels.Perm config.labels
  instanceGroups : again.instanceGroups = config.instanceGroups
  extraData : ∀ key, again.extraData.lookup key = config.extraData.lookup key
  surveyPasswords : ∀ key, again.surveyPasswords.lookup key = config.surveyPasswords.lookup key

def SameRun : UnifiedJob → UnifiedJob → Prop
  | .job again, .job job => Reproduces again job
  | .workflowJob again, .workflowJob workflowJob =>
      again.nodes = workflowJob.nodes ∧ again.isSlicedJob = workflowJob.isSlicedJob ∧
        SameConfig again.launchConfig workflowJob.launchConfig
  | _, _ => False

variable {env : Installation} {template : JobTemplate} {kwargs again : Prompts}

/-! ## Prompts that come to the same job -/

structure SameLaunch (env : Installation) (template : JobTemplate) (again kwargs : Prompts) :
    Prop where
  chars : again.chars = kwargs.chars
  jobSliceCount : again.jobSliceCount = kwargs.jobSliceCount
  inventory : again.inventory = kwargs.inventory
  executionEnvironment : again.executionEnvironment = kwargs.executionEnvironment
  prompted : again.credentials.isSome = kwargs.credentials.isSome
  credentials : ∀ key, (env.uniqueDict (again.credentials.getD [])).lookup key =
    (env.uniqueDict (kwargs.credentials.getD [])).lookup key
  labels : ∀ label, label ∈ template.labels ++ again.labels.getD [] ↔
    label ∈ template.labels ++ kwargs.labels.getD []
  instanceGroups : firsts (again.instanceGroups.getD []) = firsts (kwargs.instanceGroups.getD [])
  extraVars : ∀ key, (template.survey.passedVars env.surveys (again.extraVars.getD ∅)).lookup key =
    (template.survey.passedVars env.surveys (kwargs.extraVars.getD ∅)).lookup key
  surveyPasswords : ∀ key, (newJobPasswords template again).lookup key =
    (newJobPasswords template kwargs).lookup key

theorem SameLaunch.refl (kwargs : Prompts) : SameLaunch env template kwargs kwargs where
  chars := rfl
  jobSliceCount := rfl
  inventory := rfl
  executionEnvironment := rfl
  prompted := rfl
  credentials _ := rfl
  labels _ := Iff.rfl
  instanceGroups := rfl
  extraVars _ := rfl
  surveyPasswords _ := rfl

theorem SameLaunch.trans {later : Prompts} (hlater : SameLaunch env template later again)
    (hagain : SameLaunch env template again kwargs) : SameLaunch env template later kwargs where
  chars := hlater.chars.trans hagain.chars
  jobSliceCount := hlater.jobSliceCount.trans hagain.jobSliceCount
  inventory := hlater.inventory.trans hagain.inventory
  executionEnvironment := hlater.executionEnvironment.trans hagain.executionEnvironment
  prompted := hlater.prompted.trans hagain.prompted
  credentials key := (hlater.credentials key).trans (hagain.credentials key)
  labels label := (hlater.labels label).trans (hagain.labels label)
  instanceGroups := hlater.instanceGroups.trans hagain.instanceGroups
  extraVars key := (hlater.extraVars key).trans (hagain.extraVars key)
  surveyPasswords key := (hlater.surveyPasswords key).trans (hagain.surveyPasswords key)

/-- What an acceptance leaves: no inventory that is `None`, and some credentials that the
template does not have, unless there are none. -/
structure Restorable (template : JobTemplate) (kwargs : Prompts) : Prop where
  inventory : kwargs.inventory ≠ some none
  prompted : kwargs.credentials ≠ some []
  others : ∀ credential ∈ kwargs.credentials.getD [], credential ∉ template.credentials

theorem mem_newCredentials {own given : List CredentialId} {credential : CredentialId} :
    credential ∈ env.newCredentials own given ↔ credential ∈ given ∧ credential ∉ own := by
  rw [Installation.newCredentials, (env.setOrder_perm _).mem_iff, List.mem_filter,
    List.mem_dedup, decide_eq_true_eq]

theorem PromptsAccepted.restorable (haccepted : PromptsAccepted env template kwargs) :
    Restorable template kwargs := by
  obtain ⟨excludeErrors, given, hkwargs⟩ := haccepted
  have hinventory : kwargs.inventory =
      (template.decideInventory excludeErrors given).prompted.map some :=
    congrArg Prompts.inventory hkwargs
  have hcredentials : kwargs.credentials =
      (template.decideCredentials env excludeErrors given).prompted :=
    congrArg Prompts.credentials hkwargs
  have hchosen : ∀ prompted, kwargs.credentials = some prompted →
      (∃ chosen, env.newCredentials template.credentials chosen = prompted) ∧
        prompted.isEmpty = false := by
    intro prompted hprompted
    have hdecided := prompted_decideField_iff.mp (hcredentials.symm.trans hprompted)
    obtain ⟨chosen, -, hchosen⟩ := Option.map_eq_some_iff.mp hdecided.1
    exact ⟨⟨chosen, hchosen⟩, hdecided.2.1⟩
  constructor
  · intro hnone
    rw [hinventory] at hnone
    cases hprompt : (template.decideInventory excludeErrors given).prompted with
    | none =>
      rw [hprompt] at hnone
      exact nomatch hnone
    | some inventory =>
      rw [hprompt] at hnone
      exact nomatch hnone
  · intro hnil
    exact Bool.noConfusion (hchosen [] hnil).2
  · intro credential hmem
    cases hkwargs : kwargs.credentials with
    | none =>
      rw [hkwargs] at hmem
      exact absurd hmem List.not_mem_nil
    | some prompted =>
      rw [hkwargs, Option.getD_some] at hmem
      obtain ⟨⟨chosen, rfl⟩, -⟩ := hchosen prompted hkwargs
      exact (mem_newCredentials.mp hmem).2

/-! ## Unique credentials -/

theorem uniqueHash_of_lookup {credentials : List CredentialId} {key : String}
    {credential : CredentialId}
    (hlookup : (env.uniqueDict credentials).lookup key = some credential) :
    credential ∈ credentials ∧ (env.credentials credential).uniqueHash = key := by
  rw [Installation.uniqueDict, lookup_assignAll, AList.lookup_empty, Option.or_none] at hlookup
  obtain ⟨row, hrow, hvalue⟩ := exists_of_last hlookup
  by_cases hkey : (env.credentials row).uniqueHash = key
  · rw [if_pos hkey] at hvalue
    obtain rfl := Option.some.inj hvalue
    exact ⟨hrow, hkey⟩
  · rw [if_neg hkey] at hvalue
    exact nomatch hvalue

theorem exists_lookup_uniqueDict {credentials : List CredentialId} {credential : CredentialId}
    (hmem : credential ∈ credentials) :
    ∃ other, (env.uniqueDict credentials).lookup (env.credentials credential).uniqueHash =
      some other := by
  have hkey : (env.credentials credential).uniqueHash ∈ env.uniqueDict credentials :=
    (mem_assignAll_some id ∅).mpr (.inl (List.mem_map_of_mem hmem))
  exact Option.isSome_iff_exists.mp (AList.lookup_isSome.mpr hkey)

theorem lookup_uniqueDict_values {listed prompted : List CredentialId}
    (hvalues : ∀ credential, credential ∈ listed ↔
      ∃ key, (env.uniqueDict prompted).lookup key = some credential) (key : String) :
    (env.uniqueDict listed).lookup key = (env.uniqueDict prompted).lookup key := by
  have hlisted : ∀ credential, (env.uniqueDict listed).lookup key = some credential →
      (env.uniqueDict prompted).lookup key = some credential := by
    intro credential hlookup
    obtain ⟨hmem, hkey⟩ := uniqueHash_of_lookup hlookup
    obtain ⟨other, hother⟩ := (hvalues credential).mp hmem
    have hsame : other = key := (uniqueHash_of_lookup hother).2.symm.trans hkey
    exact hsame ▸ hother
  cases hprompted : (env.uniqueDict prompted).lookup key with
  | none =>
    cases hlookup : (env.uniqueDict listed).lookup key with
    | none => rfl
    | some credential => exact (hlisted credential hlookup).symm.trans hprompted
  | some credential =>
    have hmem : credential ∈ listed := (hvalues credential).mpr ⟨key, hprompted⟩
    obtain ⟨other, hother⟩ := @exists_lookup_uniqueDict env listed credential hmem
    rw [(uniqueHash_of_lookup hprompted).2] at hother
    rw [hother, ← hlisted other hother, hprompted]

theorem uniqueDict_nil (key : String) : (env.uniqueDict []).lookup key = none :=
  AList.lookup_empty key

theorem eq_nil_iff_uniqueDict {credentials : List CredentialId} :
    credentials = [] ↔ ∀ key, (env.uniqueDict credentials).lookup key = none := by
  constructor
  · rintro rfl key
    exact uniqueDict_nil key
  · intro hnone
    cases credentials with
    | nil => rfl
    | cons credential credentials =>
      obtain ⟨other, hother⟩ := @exists_lookup_uniqueDict env _ credential List.mem_cons_self
      exact absurd ((hnone _).symm.trans hother) (Option.some_ne_none other).symm

theorem SameLaunch.toFinset_combinedCredentials (hsame : SameLaunch env template again kwargs) :
    ((combinedCredentials env template again).getD template.credentials).toFinset =
      ((combinedCredentials env template kwargs).getD template.credentials).toFinset := by
  have hprompted := hsame.prompted
  have hcredentials := hsame.credentials
  rw [combinedCredentials, combinedCredentials]
  generalize again.credentials = given at hprompted hcredentials ⊢
  generalize kwargs.credentials = prompted at hprompted hcredentials ⊢
  cases prompted with
  | none => rw [Option.isSome_eq_false_iff.mp hprompted |> Option.isNone_iff_eq_none.mp]
  | some prompted =>
    obtain ⟨given, rfl⟩ := Option.isSome_iff_exists.mp hprompted
    rw [Option.getD_some, Option.getD_some] at hcredentials
    have hnil : given = [] ↔ prompted = [] := by
      rw [@eq_nil_iff_uniqueDict env, @eq_nil_iff_uniqueDict env]
      exact forall_congr' fun key => by rw [hcredentials]
    simp only [Option.map_some, Option.getD_some]
    by_cases hnone : prompted = []
    · rw [if_pos hnone, if_pos (hnil.mpr hnone)]
    · rw [if_neg hnone, if_neg fun hgiven => hnone (hnil.mp hgiven)]
      ext credential
      rw [List.mem_toFinset, List.mem_toFinset, mem_combinedCredentials, mem_combinedCredentials]
      exact exists_congr fun key => by rw [hcredentials]

theorem SameLaunch.samePrompts (hsame : SameLaunch env template again kwargs)
    (eager other : EagerFields) :
    SamePrompts (spawnJob env template again eager) (spawnJob env template kwargs other) := by
  have hgroups : again.instanceGroups.getD [] = [] ↔ kwargs.instanceGroups.getD [] = [] := by
    rw [← firsts_eq_nil_iff, hsame.instanceGroups, firsts_eq_nil_iff]
  constructor
  · funext field
    exact congrArg (Option.getD · _) (congrFun hsame.chars field)
  · exact congrArg (Option.getD · _) hsame.inventory
  · exact congrArg (Option.or · _) hsame.executionEnvironment
  · exact hsame.toFinset_combinedCredentials
  · ext label
    simp only [spawnJob, List.mem_toFinset]
    exact hsame.labels label
  · simp only [spawnJob, hgroups, hsame.inventory]
    split
    · rfl
    · exact hsame.instanceGroups
  · intro key
    have hvars := hsame.extraVars key
    rw [lookup_passedVars, lookup_passedVars] at hvars
    simp only [spawnJob, lookup_createUnifiedJob, hvars]
  · exact hsame.surveyPasswords

/-! ## Prompts that are taken up -/

def restored (env : Installation) (template : JobTemplate) (kwargs : Prompts)
    (credentials : Option (List CredentialId)) : Prompts :=
  (createConfigFromPrompts env template
    { savedKwargs env template kwargs with credentials := credentials }).promptsDict env

section Restored

variable {credentials : Option (List CredentialId)}

theorem restored_inventory (hinventory : kwargs.inventory ≠ some none) :
    (restored env template kwargs credentials).inventory = kwargs.inventory := by
  have hrestored : (restored env template kwargs credentials).inventory =
      kwargs.inventory.join.map some := rfl
  rw [hrestored]
  match kwargs.inventory, hinventory with
  | none, _ => rfl
  | some (some inventory), _ => rfl
  | some none, hsome => exact absurd rfl hsome

theorem mem_restored_labels {label : LabelId} :
    label ∈ (restored env template kwargs credentials).labels.getD [] ↔
      label ∈ kwargs.labels.getD [] ∧ label ∉ template.labels :=
  mem_savedPrompts_labels

theorem lookup_restored_extraVars (key : String) :
    ((restored env template kwargs credentials).extraVars.getD ∅).lookup key =
      (template.survey.passedVars env.surveys (kwargs.extraVars.getD ∅)).lookup key := by
  have hrestored : (restored env template kwargs credentials).extraVars.getD ∅ =
      (kwargs.extraVars.map (template.survey.passedVars env.surveys)).getD ∅ :=
    getD_nonEmptyDict _
  rw [hrestored]
  cases kwargs.extraVars with
  | none => exact (passedVars_empty _ _ key).symm
  | some extraVars => rfl

theorem passedVars_restored (key : String) :
    (template.survey.passedVars env.surveys
      ((restored env template kwargs credentials).extraVars.getD ∅)).lookup key =
        (template.survey.passedVars env.surveys (kwargs.extraVars.getD ∅)).lookup key := by
  rw [lookup_passedVars, lookup_restored_extraVars, lookup_passedVars, Option.bind_assoc]
  refine congrArg (Option.bind _) ?_
  funext value
  exact launchedValue_launchedValue env.surveys template.survey key value

theorem restored_surveyPasswords :
    (restored env template kwargs credentials).surveyPasswords.getD ∅ =
      newJobPasswords template kwargs :=
  (getD_nonEmptyDict _).trans (getD_nonEmptyDict _)

theorem lookup_newJobPasswords_restored (key : String) :
    (newJobPasswords template (restored env template kwargs credentials)).lookup key =
      (newJobPasswords template kwargs).lookup key := by
  rw [lookup_newJobPasswords, restored_surveyPasswords, lookup_newJobPasswords]
  split
  · rfl
  · rfl

theorem restored_instanceGroups :
    (restored env template kwargs credentials).instanceGroups.getD [] =
      firsts (kwargs.instanceGroups.getD []) := by
  have hrestored : (restored env template kwargs credentials).instanceGroups =
      nonEmptyList (firsts (kwargs.instanceGroups.getD [])) := rfl
  rw [hrestored]
  cases firsts (kwargs.instanceGroups.getD []) <;> rfl

theorem mem_restored_credentials {credential : CredentialId} :
    credential ∈ (restored env template kwargs credentials).credentials.getD [] ↔
      credential ∈ credentials.getD [] ∧ credential ∉ template.credentials := by
  have hrestored : (restored env template kwargs credentials).credentials = nonEmptyList
      (env.rowOrder (env.newCredentials template.credentials (credentials.getD []))) := rfl
  rw [hrestored, mem_nonEmptyList, (env.rowOrder_perm _).mem_iff, mem_newCredentials]

theorem restored_credentials_ne_nil :
    (restored env template kwargs credentials).credentials ≠ some [] := by
  have hrestored : (restored env template kwargs credentials).credentials = nonEmptyList
      (env.rowOrder (env.newCredentials template.credentials (credentials.getD []))) := rfl
  rw [hrestored]
  cases env.rowOrder (env.newCredentials template.credentials (credentials.getD [])) with
  | nil => exact fun hnone => nomatch hnone
  | cons credential credentials => exact fun hsome => nomatch hsome

theorem restorable_restored : Restorable template (restored env template kwargs credentials) where
  inventory hnone := by
    have hrestored : (restored env template kwargs credentials).inventory =
        kwargs.inventory.join.map some := rfl
    rw [hrestored] at hnone
    cases hinventory : kwargs.inventory.join with
    | none =>
      rw [hinventory] at hnone
      exact nomatch hnone
    | some inventory =>
      rw [hinventory] at hnone
      exact nomatch hnone
  prompted := restored_credentials_ne_nil
  others _ hmem := (mem_restored_credentials.mp hmem).2

end Restored

theorem isSome_iff_getD_ne_nil {α : Type} {items : Option (List α)} (hitems : items ≠ some []) :
    items.isSome = true ↔ items.getD [] ≠ [] := by
  cases items with
  | none => simp
  | some items =>
    rw [Option.getD_some]
    exact iff_of_true rfl fun hnil => hitems (congrArg some hnil)

theorem Restorable.mem_restored_combined (hrestorable : Restorable template kwargs)
    {credential : CredentialId} :
    credential ∈ (restored env template kwargs
        (combinedCredentials env template kwargs)).credentials.getD [] ↔
      ∃ key, (env.uniqueDict (kwargs.credentials.getD [])).lookup key = some credential := by
  rw [mem_restored_credentials, combinedCredentials]
  have hprompted := hrestorable.prompted
  have hothers := hrestorable.others
  generalize kwargs.credentials = given at hprompted hothers ⊢
  cases given with
  | none =>
    simp only [Option.map_none, Option.getD_none, List.not_mem_nil, false_and, uniqueDict_nil,
      (Option.some_ne_none credential).symm, exists_false]
  | some prompted =>
    have hsome : prompted ≠ [] := fun hnil => hprompted (congrArg some hnil)
    simp only [Option.map_some, Option.getD_some, if_neg hsome, mem_combinedCredentials]
    rw [Option.getD_some] at hothers
    constructor
    · rintro ⟨⟨key, hlookup⟩, hnew⟩
      refine ⟨key, ?_⟩
      cases hkey : (env.uniqueDict prompted).lookup key with
      | some found => rwa [hkey, Option.some_or] at hlookup
      | none =>
        rw [hkey, Option.none_or] at hlookup
        exact absurd (uniqueHash_of_lookup hlookup).1 hnew
    · rintro ⟨key, hlookup⟩
      refine ⟨⟨key, ?_⟩, hothers credential (uniqueHash_of_lookup hlookup).1⟩
      rw [hlookup, Option.some_or]

theorem Restorable.sameLaunch (hrestorable : Restorable template kwargs) :
    SameLaunch env template
      (restored env template kwargs (combinedCredentials env template kwargs)) kwargs := by
  have hcredentials := lookup_uniqueDict_values fun credential =>
    @Restorable.mem_restored_combined env template kwargs hrestorable credential
  have hnil : (restored env template kwargs
      (combinedCredentials env template kwargs)).credentials.getD [] = [] ↔
        kwargs.credentials.getD [] = [] := by
    rw [@eq_nil_iff_uniqueDict env, @eq_nil_iff_uniqueDict env]
    exact forall_congr' fun key => by rw [hcredentials]
  constructor
  · rfl
  · rfl
  · exact restored_inventory hrestorable.inventory
  · rfl
  · rw [Bool.eq_iff_iff, isSome_iff_getD_ne_nil restored_credentials_ne_nil, Ne, hnil]
    exact (isSome_iff_getD_ne_nil hrestorable.prompted).symm
  · exact hcredentials
  · intro label
    rw [List.mem_append, List.mem_append, mem_restored_labels, and_comm, or_and_left,
      and_iff_right (Decidable.em _)]
  · rw [restored_instanceGroups, firsts_firsts]
  · exact passedVars_restored
  · exact lookup_newJobPasswords_restored

/-! ## Any number of relaunches -/

theorem relaunch_cons (launched : UnifiedJob) (fields : LaunchFields)
    (relaunches : List LaunchFields) :
    relaunch env template launched (fields :: relaunches) =
      relaunch env template (launched.copyUnifiedJob env template Prompts.none fields) relaunches :=
  rfl

theorem copyUnifiedJob_spawnJob (eager : EagerFields) (fields : LaunchFields) :
    (spawnJob env template kwargs eager).copyUnifiedJob env template Prompts.none fields =
      .job (spawnJob env template
        (restored env template kwargs (combinedCredentials env template kwargs))
        { fields with
          launchType := some "relaunch"
          jobSliceNumber := some (spawnJob env template kwargs eager).jobSliceNumber
          jobSliceCount := some (spawnJob env template kwargs eager).jobSliceCount }) :=
  createUnifiedJob_prevented _

theorem relaunch_spawnJob (hrestorable : Restorable template kwargs) (eager : EagerFields)
    (relaunches : List LaunchFields) :
    ∃ later other, relaunch env template (.job (spawnJob env template kwargs eager)) relaunches =
        .job (spawnJob env template later other) ∧
      SameLaunch env template later kwargs ∧
      (later.instanceGroups.getD [] = kwargs.instanceGroups.getD [] ∨
        later.instanceGroups.getD [] = firsts (kwargs.instanceGroups.getD [])) ∧
      (spawnJob env template later other).jobSliceNumber =
        (spawnJob env template kwargs eager).jobSliceNumber ∧
      (spawnJob env template later other).jobSliceCount =
        (spawnJob env template kwargs eager).jobSliceCount := by
  induction relaunches generalizing kwargs eager with
  | nil => exact ⟨kwargs, eager, rfl, .refl kwargs, .inl rfl, rfl, rfl⟩
  | cons fields relaunches ih =>
    obtain ⟨later, other, hlater, hsame, hgroups, hnumber, hcount⟩ := ih
      (@restorable_restored env template kwargs (combinedCredentials env template kwargs))
      { fields with
        launchType := some "relaunch"
        jobSliceNumber := some (spawnJob env template kwargs eager).jobSliceNumber
        jobSliceCount := some (spawnJob env template kwargs eager).jobSliceCount }
    refine ⟨later, other, ?_, hsame.trans hrestorable.sameLaunch, .inr ?_, hnumber, hcount⟩
    · rw [relaunch_cons, UnifiedJob.copyUnifiedJob, copyUnifiedJob_spawnJob]
      exact hlater
    · rw [restored_instanceGroups, firsts_firsts, or_self] at hgroups
      exact hgroups

theorem reproduces_spawnJob (hsame : SameLaunch env template again kwargs)
    (hgroups : again.instanceGroups.getD [] = kwargs.instanceGroups.getD [] ∨
      again.instanceGroups.getD [] = firsts (kwargs.instanceGroups.getD []))
    {eager other : EagerFields}
    (hnumber : (spawnJob env template again other).jobSliceNumber =
      (spawnJob env template kwargs eager).jobSliceNumber)
    (hcount : (spawnJob env template again other).jobSliceCount =
      (spawnJob env template kwargs eager).jobSliceCount) :
    Reproduces (spawnJob env template again other) (spawnJob env template kwargs eager) where
  toSamePrompts := hsame.samePrompts other eager
  groups := by
    simp only [spawnJob, hsame.inventory]
    rcases hgroups with hgroups | hgroups
    · rw [hgroups]
      exact .inl rfl
    · simp only [hgroups, firsts_eq_nil_iff]
      split
      · exact .inl rfl
      · exact .inr rfl
  jobSliceNumber := hnumber
  jobSliceCount := hcount

/-! ## Relaunches of sliced launches -/

theorem SameConfig.refl (config : LaunchConfig) : SameConfig config config where
  chars := rfl
  jobSliceCount := rfl
  inventory := rfl
  executionEnvironment := rfl
  credentials := .refl _
  labels := .refl _
  instanceGroups := rfl
  extraData _ := rfl
  surveyPasswords _ := rfl

theorem SameConfig.trans {later config earlier : LaunchConfig} (hlater : SameConfig later config)
    (hconfig : SameConfig config earlier) : SameConfig later earlier where
  chars := hlater.chars.trans hconfig.chars
  jobSliceCount := hlater.jobSliceCount.trans hconfig.jobSliceCount
  inventory := hlater.inventory.trans hconfig.inventory
  executionEnvironment := hlater.executionEnvironment.trans hconfig.executionEnvironment
  credentials := hlater.credentials.trans hconfig.credentials
  labels := hlater.labels.trans hconfig.labels
  instanceGroups := hlater.instanceGroups.trans hconfig.instanceGroups
  extraData key := (hlater.extraData key).trans (hconfig.extraData key)
  surveyPasswords key := (hlater.surveyPasswords key).trans (hconfig.surveyPasswords key)

def slicedConfig (env : Installation) (template : JobTemplate) (kwargs : Prompts) : LaunchConfig :=
  createConfigFromPrompts env template (savedKwargs env template kwargs)

theorem lookup_slicedConfig_extraData (key : String) :
    (slicedConfig env template kwargs).extraData.lookup key =
      (template.survey.passedVars env.surveys (kwargs.extraVars.getD ∅)).lookup key := by
  have hdata : (slicedConfig env template kwargs).extraData =
      (kwargs.extraVars.map (template.survey.passedVars env.surveys)).getD ∅ := rfl
  rw [hdata]
  cases kwargs.extraVars with
  | none => exact (passedVars_empty _ _ key).symm
  | some extraVars => rfl

theorem slicedConfig_surveyPasswords :
    (slicedConfig env template kwargs).surveyPasswords = newJobPasswords template kwargs :=
  getD_nonEmptyDict _

theorem setOrder_filter_perm {own given listed : List ℕ}
    (hlisted : ∀ item, item ∈ listed ↔ item ∈ given ∧ item ∉ own) :
    (env.setOrder (listed.dedup.filter fun item => item ∉ own)).Perm
      (env.setOrder (given.dedup.filter fun item => item ∉ own)) := by
  refine (env.setOrder_perm _).trans (List.Perm.trans ?_ (env.setOrder_perm _).symm)
  rw [List.perm_ext_iff_of_nodup ((List.nodup_dedup _).filter _) ((List.nodup_dedup _).filter _)]
  intro item
  rw [List.mem_filter, List.mem_filter, List.mem_dedup, List.mem_dedup, hlisted,
    decide_eq_true_eq, and_assoc, and_self]

theorem sameConfig_restored :
    SameConfig (slicedConfig env template (restored env template kwargs kwargs.credentials))
      (slicedConfig env template kwargs) where
  chars := rfl
  jobSliceCount := rfl
  inventory := by
    have hjoin (inventory : Option InventoryId) : (inventory.map some).join = inventory := by
      cases inventory <;> rfl
    exact hjoin _
  executionEnvironment := rfl
  credentials := setOrder_filter_perm fun _ => mem_restored_credentials
  labels := setOrder_filter_perm fun _ => mem_restored_labels
  instanceGroups := (congrArg firsts restored_instanceGroups).trans (firsts_firsts _)
  extraData key := by
    rw [lookup_slicedConfig_extraData, lookup_slicedConfig_extraData]
    exact passedVars_restored key
  surveyPasswords key := by
    rw [slicedConfig_surveyPasswords, slicedConfig_surveyPasswords]
    exact lookup_newJobPasswords_restored key

theorem getEffectiveSliceCt_restored (hinventory : kwargs.inventory ≠ some none)
    {credentials : Option (List CredentialId)} :
    template.getEffectiveSliceCt env (restored env template kwargs credentials) =
      template.getEffectiveSliceCt env kwargs := by
  have hcount : (restored env template kwargs credentials).jobSliceCount = kwargs.jobSliceCount :=
    rfl
  rw [JobTemplate.getEffectiveSliceCt, JobTemplate.getEffectiveSliceCt,
    JobTemplate.actualInventory, JobTemplate.actualInventory, JobTemplate.actualSliceCount,
    JobTemplate.actualSliceCount, restored_inventory hinventory, hcount]

theorem copyUnifiedJob_spawnWorkflowJob (hinventory : kwargs.inventory ≠ some none)
    (hsliced : 1 < template.getEffectiveSliceCt env kwargs) (eager : EagerFields)
    (fields : LaunchFields) {sliceCt : ℕ} :
    (spawnWorkflowJob env template kwargs eager sliceCt).copyUnifiedJob env template Prompts.none
        fields =
      .workflowJob (spawnWorkflowJob env template (restored env template kwargs kwargs.credentials)
        { fields with
          launchType := some "relaunch"
          jobSliceNumber := none
          jobSliceCount := none } (template.getEffectiveSliceCt env kwargs)) := by
  rw [← getEffectiveSliceCt_restored hinventory] at hsliced ⊢
  exact if_pos ⟨hsliced, rfl⟩

theorem relaunch_spawnWorkflowJob (hinventory : kwargs.inventory ≠ some none)
    (hsliced : 1 < template.getEffectiveSliceCt env kwargs) (eager : EagerFields)
    (relaunches : List LaunchFields) :
    ∃ later other, relaunch env template (.workflowJob (spawnWorkflowJob env template kwargs eager
          (template.getEffectiveSliceCt env kwargs))) relaunches =
        .workflowJob (spawnWorkflowJob env template later other
          (template.getEffectiveSliceCt env kwargs)) ∧
      SameConfig (slicedConfig env template later) (slicedConfig env template kwargs) := by
  induction relaunches generalizing kwargs eager with
  | nil => exact ⟨kwargs, eager, rfl, .refl _⟩
  | cons fields relaunches ih =>
    have hcount := @getEffectiveSliceCt_restored env template kwargs hinventory kwargs.credentials
    obtain ⟨later, other, hlater, hsame⟩ := ih restorable_restored.inventory
      (hcount.symm ▸ hsliced)
      { fields with
        launchType := some "relaunch"
        jobSliceNumber := none
        jobSliceCount := none }
    refine ⟨later, other, ?_, hsame.trans sameConfig_restored⟩
    rw [relaunch_cons, UnifiedJob.copyUnifiedJob,
      copyUnifiedJob_spawnWorkflowJob hinventory hsliced, ← hcount]
    exact hlater

theorem createUnifiedJob_cases (kwargs : Prompts) (eager : EagerFields) (preventSlicing : Bool) :
    (1 < template.getEffectiveSliceCt env kwargs ∧
        createUnifiedJob env template kwargs eager preventSlicing =
          .workflowJob (spawnWorkflowJob env template kwargs eager
            (template.getEffectiveSliceCt env kwargs))) ∨
      ∃ other, createUnifiedJob env template kwargs eager preventSlicing =
        .job (spawnJob env template kwargs other) := by
  rw [createUnifiedJob]
  split
  · next hsliced => exact .inl ⟨hsliced.1, rfl⟩
  · split
    · exact .inr ⟨_, rfl⟩
    · split
      · exact .inr ⟨_, rfl⟩
      · exact .inr ⟨_, rfl⟩

/-- Relaunching an accepted launch any number of times gives the same job. -/
theorem relaunches_reproduce_launch (haccepted : PromptsAccepted env template kwargs)
    (eager : EagerFields) (preventSlicing : Bool) (relaunches : List LaunchFields) :
    SameRun
      (relaunch env template (createUnifiedJob env template kwargs eager preventSlicing) relaunches)
      (createUnifiedJob env template kwargs eager preventSlicing) := by
  have hrestorable := haccepted.restorable
  rcases @createUnifiedJob_cases env template kwargs eager preventSlicing with
    ⟨hsliced, hlaunch⟩ | ⟨first, hlaunch⟩
  · obtain ⟨later, other, hlater, hsame⟩ :=
      relaunch_spawnWorkflowJob hrestorable.inventory hsliced eager relaunches
    rw [hlaunch, hlater]
    exact ⟨rfl, rfl, hsame⟩
  · obtain ⟨later, other, hlater, hsame, hgroups, hnumber, hcount⟩ :=
      @relaunch_spawnJob env template kwargs hrestorable first relaunches
    rw [hlaunch, hlater]
    exact reproduces_spawnJob hsame hgroups hnumber hcount

theorem relaunches_reproduce_launch_sample :
    SameRun
      (relaunch sampleInstallation sampleTemplate
        (createUnifiedJob sampleInstallation sampleTemplate samplePrompts
          ⟨⟨none, none, none⟩, none, none⟩ true) [⟨none, some 1, none⟩, ⟨none, some 2, none⟩])
      (createUnifiedJob sampleInstallation sampleTemplate samplePrompts
        ⟨⟨none, none, none⟩, none, none⟩ true) :=
  relaunches_reproduce_launch ⟨["prompts"], sampleLaunch, rfl⟩ _ _ _

def groupsTemplate : JobTemplate :=
  { sampleTemplate with askInstanceGroups := true }

def repeatedGroups : Prompts :=
  (groupsTemplate.acceptOrIgnoreJobKwargs sampleInstallation ["prompts"]
    { Prompts.none with instanceGroups := some [1, 1, 2] }).prompted

theorem repeatedGroups_collapse : PromptsAccepted sampleInstallation groupsTemplate repeatedGroups ∧
    ∃ job again, createUnifiedJob sampleInstallation groupsTemplate repeatedGroups
        ⟨⟨none, none, none⟩, none, none⟩ false = .job job ∧
      job.copyUnifiedJob sampleInstallation groupsTemplate Prompts.none ⟨none, none, none⟩ =
        .job again ∧
      job.preferredInstanceGroupsCache = [1, 1, 2] ∧
      again.preferredInstanceGroupsCache = [1, 2] :=
  ⟨⟨["prompts"], { Prompts.none with instanceGroups := some [1, 1, 2] }, rfl⟩,
    spawnJob sampleInstallation groupsTemplate repeatedGroups ⟨⟨none, none, none⟩, none, none⟩,
    _, rfl, copyUnifiedJob_spawnJob _ _, by decide, by decide⟩

end Forail.SlicedLaunches
