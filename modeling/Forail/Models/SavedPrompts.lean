import Forail.Models.SlicedLaunches

/-!
# Prompts that are saved and accepted again

What a template has accepted it accepts once more after it has been saved, up to the order
of sets and repeated instance groups.
-/

namespace Forail.SlicedLaunches

open Forail.FactCache Forail.Grouping Forail.Json Forail.Surveys Forail.LaunchPrompts

variable {env : Installation} {template : JobTemplate}

/-! ## The rule for one field -/

section Fields

variable {α : Type} {excludeErrors others : List String} {asked : Bool} {same : α → Bool}
  {problem : α → Option String}

theorem prompted_decideField_iff {value : Option α} {accepted : α} :
    (decideField excludeErrors asked same problem value).prompted = some accepted ↔
      value = some accepted ∧ same accepted = false ∧ asked = true ∧ problem accepted = none := by
  cases value with
  | none =>
    constructor
    · exact fun hnone => absurd hnone.symm (Option.some_ne_none accepted)
    · exact fun hvalue => absurd hvalue.1.symm (Option.some_ne_none accepted)
  | some value =>
    rw [decideField, Option.some_inj]
    cases hsame : same value with
    | true =>
      constructor
      · exact fun hnone => absurd hnone.symm (Option.some_ne_none accepted)
      · rintro ⟨rfl, hother, -⟩
        exact absurd (hother.symm.trans hsame) Bool.false_ne_true
    | false =>
      cases asked with
      | false =>
        constructor
        · exact fun hnone => absurd hnone.symm (Option.some_ne_none accepted)
        · exact fun hasked => absurd hasked.2.2.1 Bool.false_ne_true
      | true =>
        cases hproblem : problem value with
        | some error =>
          simp only [Bool.false_eq_true, if_false, if_true, Decision.prompted]
          constructor
          · exact fun hnone => absurd hnone.symm (Option.some_ne_none accepted)
          · rintro ⟨rfl, -, -, hnone⟩
            exact absurd (hnone.symm.trans hproblem).symm (Option.some_ne_none error)
        | none =>
          simp only [Bool.false_eq_true, if_false, if_true, Decision.prompted,
            Option.some_inj]
          constructor
          · rintro rfl
            exact ⟨rfl, hsame, trivial, hproblem⟩
          · exact fun hvalue => hvalue.1

theorem prompted_decideField_prompted (value : Option α) :
    (decideField others asked same problem
      (decideField excludeErrors asked same problem value).prompted).prompted =
        (decideField excludeErrors asked same problem value).prompted := by
  cases hprompted : (decideField excludeErrors asked same problem value).prompted with
  | none => rfl
  | some accepted =>
    obtain ⟨-, hsame, hasked, hproblem⟩ := prompted_decideField_iff.mp hprompted
    exact prompted_decideField_iff.mpr ⟨rfl, hsame, hasked, hproblem⟩

theorem prompted_decideField_query (value : Option α) :
    (decideField excludeErrors asked (fun _ => false) (fun _ => none) value).prompted =
      if asked then value else none := by
  cases value with
  | none => exact (ite_self none).symm
  | some value => cases asked <;> rfl

end Fields

/-! ## Accepted prompts -/

/-- The prompts that a template accepted from some launch, with any variables, when no resource
is missing and no two credentials have one hash. -/
structure Accepted (env : Installation) (template : JobTemplate) (kwargs : Prompts) : Prop where
  prompted : ∃ excludeErrors given, kwargs =
    { (template.acceptOrIgnoreJobKwargs env excludeErrors given).prompted with
      extraVars := kwargs.extraVars
      surveyPasswords := kwargs.surveyPasswords }
  resources : template.missingResources kwargs = []
  credentials : ((kwargs.credentials.getD []).map fun credential =>
    (env.credentials credential).uniqueHash).Nodup

variable {kwargs saved : Prompts}

namespace Accepted

section

variable (haccepted : Accepted env template kwargs)
include haccepted

theorem decideChar {field : CharPrompt}
    (hsaved : saved.chars field = kwargs.chars field) :
    (template.decideChar [] saved field).prompted = kwargs.chars field := by
  obtain ⟨excludeErrors, given, hprompted⟩ := haccepted.prompted
  have hchar : kwargs.chars field = (template.decideChar excludeErrors given field).prompted :=
    congrFun (congrArg Prompts.chars hprompted) field
  rw [JobTemplate.decideChar, hsaved, hchar]
  exact prompted_decideField_prompted _

theorem decideInventory (hsaved : saved.inventory = kwargs.inventory) :
    (template.decideInventory [] saved).prompted.map some = kwargs.inventory := by
  obtain ⟨excludeErrors, given, hprompted⟩ := haccepted.prompted
  have hinventory : kwargs.inventory =
      (template.decideInventory excludeErrors given).prompted.map some :=
    congrArg Prompts.inventory hprompted
  have hjoin : ∀ value : Option InventoryId, (value.map some).join = value := fun value => by
    cases value <;> rfl
  rw [JobTemplate.decideInventory, hsaved, hinventory, hjoin]
  exact congrArg (Option.map some) (prompted_decideField_prompted _)

theorem decideExecutionEnvironment
    (hsaved : saved.executionEnvironment = kwargs.executionEnvironment) :
    (template.decideExecutionEnvironment [] saved).prompted = kwargs.executionEnvironment := by
  obtain ⟨excludeErrors, given, hprompted⟩ := haccepted.prompted
  have henvironment : kwargs.executionEnvironment =
      (template.decideExecutionEnvironment excludeErrors given).prompted :=
    congrArg Prompts.executionEnvironment hprompted
  rw [JobTemplate.decideExecutionEnvironment, hsaved, henvironment]
  exact prompted_decideField_prompted _

theorem decideLabels (hnone : kwargs.labels = none → saved.labels = none) :
    (template.decideLabels [] saved).prompted = saved.labels := by
  obtain ⟨excludeErrors, given, hprompted⟩ := haccepted.prompted
  have hlabels : kwargs.labels = (template.decideLabels excludeErrors given).prompted :=
    congrArg Prompts.labels hprompted
  rw [JobTemplate.decideLabels, prompted_decideField_query] at hlabels ⊢
  split
  · rfl
  · next hasked => exact (hnone (hlabels.trans (if_neg hasked))).symm

theorem decideInstanceGroups (hnone : kwargs.instanceGroups = none → saved.instanceGroups = none) :
    (template.decideInstanceGroups [] saved).prompted = saved.instanceGroups := by
  obtain ⟨excludeErrors, given, hprompted⟩ := haccepted.prompted
  have hgroups : kwargs.instanceGroups =
      (template.decideInstanceGroups excludeErrors given).prompted :=
    congrArg Prompts.instanceGroups hprompted
  rw [JobTemplate.decideInstanceGroups, prompted_decideField_query] at hgroups ⊢
  split
  · rfl
  · next hasked => exact (hnone (hgroups.trans (if_neg hasked))).symm

theorem exists_decideCredentials {prompted : List ℕ}
    (hkwargs : kwargs.credentials = some prompted) :
    ∃ given : List ℕ, env.newCredentials template.credentials given = prompted ∧
      prompted ≠ [] ∧ template.askCredential = true := by
  obtain ⟨excludeErrors, raw, hprompted⟩ := haccepted.prompted
  have hcredentials : (template.decideCredentials env excludeErrors raw).prompted =
      some prompted := (congrArg Prompts.credentials hprompted).symm.trans hkwargs
  obtain ⟨hraw, hsome, hasked, -⟩ := prompted_decideField_iff.mp hcredentials
  obtain ⟨given, -, hgiven⟩ := Option.map_eq_some_iff.mp hraw
  exact ⟨given, hgiven, List.isEmpty_eq_false_iff.mp hsome, hasked⟩

theorem newCredentials_perm {prompted given : List ℕ}
    (hkwargs : kwargs.credentials = some prompted) (hgiven : given.Perm prompted) :
    (env.newCredentials template.credentials given).Perm prompted := by
  obtain ⟨chosen, rfl, -⟩ := haccepted.exists_decideCredentials hkwargs
  have hlisted : given.Perm (chosen.dedup.filter fun credential =>
      credential ∉ template.credentials) := hgiven.trans (env.setOrder_perm _)
  have hnodup : given.Nodup := hlisted.nodup_iff.mpr ((List.nodup_dedup chosen).filter _)
  refine (env.setOrder_perm _).trans ?_
  rw [hnodup.dedup, List.filter_eq_self.mpr]
  · exact hgiven
  · exact fun credential hmem => (List.mem_filter.mp (hlisted.mem_iff.mp hmem)).2

theorem decideCredentials (hsaved : Option.Rel List.Perm saved.credentials kwargs.credentials) :
    Option.Rel List.Perm (template.decideCredentials env [] saved).prompted
      kwargs.credentials := by
  rw [JobTemplate.decideCredentials]
  generalize hkwargs : kwargs.credentials = credentials at hsaved ⊢
  generalize saved.credentials = given at hsaved ⊢
  cases hsaved with
  | none => exact .none
  | some hgiven =>
    rename_i given prompted
    obtain ⟨-, -, hsome, hasked⟩ := haccepted.exists_decideCredentials hkwargs
    have hperm := haccepted.newCredentials_perm hkwargs hgiven
    have hagain : env.newCredentials template.credentials given ≠ [] := fun hnil =>
      hsome (List.perm_nil.mp (hnil ▸ hperm).symm)
    rw [Option.map_some,
      prompted_decideField_iff.mpr ⟨rfl, List.isEmpty_eq_false_iff.mpr hagain, hasked, rfl⟩]
    exact .some hperm

theorem actualInventory :
    template.actualInventory kwargs = kwargs.inventory.getD template.inventory := by
  obtain ⟨excludeErrors, given, hprompted⟩ := haccepted.prompted
  have hinventory : kwargs.inventory =
      (template.decideInventory excludeErrors given).prompted.map some :=
    congrArg Prompts.inventory hprompted
  rw [JobTemplate.actualInventory]
  cases hdecision : (template.decideInventory excludeErrors given).prompted with
  | none =>
    rw [hdecision] at hinventory
    rw [hinventory]
    rfl
  | some inventory =>
    obtain ⟨-, -, hasked, -⟩ := prompted_decideField_iff.mp hdecision
    rw [hdecision] at hinventory
    rw [hinventory, Option.map_some, Option.getD_some]
    exact if_pos hasked

theorem exists_inventory : ∃ inventory, template.actualInventory kwargs = some inventory := by
  have hresources := haccepted.resources
  have hinventory := haccepted.actualInventory
  obtain ⟨excludeErrors, given, hprompted⟩ := haccepted.prompted
  have hdecision : kwargs.inventory =
      (template.decideInventory excludeErrors given).prompted.map some :=
    congrArg Prompts.inventory hprompted
  rw [hinventory]
  cases hprompt : (template.decideInventory excludeErrors given).prompted with
  | some inventory =>
    rw [hdecision, hprompt]
    exact ⟨inventory, rfl⟩
  | none =>
    rw [hdecision, hprompt, Option.map_none, Option.getD_none]
    rw [JobTemplate.missingResources, hdecision, hprompt] at hresources
    cases htemplate : template.inventory with
    | some inventory => exact ⟨inventory, rfl⟩
    | none =>
      rw [htemplate] at hresources
      exact absurd (List.append_eq_nil_iff.mp hresources).2 (List.cons_ne_nil _ _)

end

end Accepted

/-! ## Saved prompts -/

theorem mem_nonEmptyList {α : Type} {items : List α} {item : α} :
    item ∈ (nonEmptyList items).getD [] ↔ item ∈ items := by
  cases items <;> rfl

theorem nonEmptyList_of_ne_nil {α : Type} {items : List α} (hitems : items ≠ []) :
    nonEmptyList items = some items := by
  cases items with
  | nil => exact absurd rfl hitems
  | cons item items => rfl

theorem getD_nonEmptyDict {V : Type} (dict : Dict String V) :
    (nonEmptyDict dict).getD ∅ = dict := by
  rw [nonEmptyDict]
  split
  · next hnil => exact AList.ext hnil.symm
  · rfl

theorem rowOrder_nil (env : Installation) : env.rowOrder [] = [] :=
  List.perm_nil.mp (env.rowOrder_perm [])

theorem setOrder_nil (env : Installation) : env.setOrder [] = [] :=
  List.perm_nil.mp (env.setOrder_perm [])

theorem combinePrompts_empty (prompts : Prompts) :
    combinePrompts env (LaunchConfig.empty.promptsDict env) prompts = prompts := by
  have hnone : LaunchConfig.empty.promptsDict env = Prompts.none := by
    simp only [LaunchConfig.promptsDict, LaunchConfig.empty, rowOrder_nil]
    rfl
  rw [hnone, combinePrompts, updatePrompts, Prompts.none]
  cases prompts with
  | mk chars jobSliceCount inventory executionEnvironment credentials labels instanceGroups
      extraVars surveyPasswords =>
    simp only [Option.or_none]

def savedPrompts (env : Installation) (template : JobTemplate) (kwargs : Prompts) : Prompts :=
  (createConfigFromPrompts env template (savedKwargs env template kwargs)).promptsDict env

structure Retaken (env : Installation) (template : JobTemplate) (kwargs again : Prompts) :
    Prop where
  chars : again.chars = kwargs.chars
  inventory : again.inventory = kwargs.inventory
  executionEnvironment : again.executionEnvironment = kwargs.executionEnvironment
  credentials : Option.Rel List.Perm again.credentials kwargs.credentials
  labels : ∀ label, label ∈ template.labels ++ again.labels.getD [] ↔
    label ∈ template.labels ++ kwargs.labels.getD []
  instanceGroups : again.instanceGroups.getD [] = firsts (kwargs.instanceGroups.getD [])
  extraVars : ∀ key, (again.extraVars.getD ∅).lookup key =
    (template.survey.passedVars env.surveys (kwargs.extraVars.getD ∅)).lookup key
  surveyPasswords : again.surveyPasswords.getD ∅ = newJobPasswords template kwargs

theorem passedVars_empty (survey : SurveyTemplate) (surveys : Surroundings) (key : String) :
    (survey.passedVars surveys ∅).lookup key = none := by
  rw [lookup_passedVars, AList.lookup_empty, Option.bind_none]

theorem lookup_accepted_empty (survey : SurveyTemplate) (surveys : Surroundings)
    (excludeErrors extraPasswords : List String) (key : String) :
    (survey.acceptOrIgnoreVariables surveys excludeErrors extraPasswords ∅).accepted.lookup key =
      none := by
  obtain ⟨hleft, haccepted⟩ := @lookup_survey_of_none key
    (elementErrors surveys excludeErrors extraPasswords ∅) survey.questions ⟨∅, ∅, ∅, []⟩ rfl
  rw [SurveyTemplate.acceptOrIgnoreVariables]
  dsimp only
  split
  · rw [lookup_union, hleft, haccepted]
    rfl
  · exact haccepted

theorem Accepted.map_inventory (haccepted : Accepted env template kwargs) :
    kwargs.inventory.join.map some = kwargs.inventory := by
  obtain ⟨excludeErrors, given, hprompted⟩ := haccepted.prompted
  have hinventory : kwargs.inventory =
      (template.decideInventory excludeErrors given).prompted.map some :=
    congrArg Prompts.inventory hprompted
  rw [hinventory]
  cases (template.decideInventory excludeErrors given).prompted <;> rfl

theorem savedPrompts_credentials (haccepted : Accepted env template kwargs) :
    Option.Rel List.Perm (savedPrompts env template kwargs).credentials kwargs.credentials := by
  have hsaved : (savedPrompts env template kwargs).credentials = nonEmptyList
      (env.rowOrder (env.newCredentials template.credentials (kwargs.credentials.getD []))) := rfl
  rw [hsaved]
  cases hkwargs : kwargs.credentials with
  | none =>
    rw [Option.getD_none, Installation.newCredentials, List.dedup_nil, List.filter_nil,
      setOrder_nil, rowOrder_nil]
    exact .none
  | some prompted =>
    have hperm := (env.rowOrder_perm _).trans
      (haccepted.newCredentials_perm hkwargs (.refl prompted))
    obtain ⟨-, -, hsome, -⟩ := haccepted.exists_decideCredentials hkwargs
    rw [Option.getD_some,
      nonEmptyList_of_ne_nil fun hnil => hsome (List.perm_nil.mp (hnil ▸ hperm).symm)]
    exact .some hperm

theorem mem_savedPrompts_labels {label : LabelId} :
    label ∈ (savedPrompts env template kwargs).labels.getD [] ↔
      label ∈ kwargs.labels.getD [] ∧ label ∉ template.labels := by
  have hsaved : (savedPrompts env template kwargs).labels = nonEmptyList (env.rowOrder
      (env.setOrder ((kwargs.labels.getD []).dedup.filter fun label =>
        label ∉ template.labels))) := rfl
  rw [hsaved, mem_nonEmptyList, (env.rowOrder_perm _).mem_iff, (env.setOrder_perm _).mem_iff,
    List.mem_filter, List.mem_dedup, decide_eq_true_eq]

theorem savedPrompts_labels_none (hnone : kwargs.labels = none) :
    (savedPrompts env template kwargs).labels = none := by
  have hsaved : (savedPrompts env template kwargs).labels = nonEmptyList (env.rowOrder
      (env.setOrder ((kwargs.labels.getD []).dedup.filter fun label =>
        label ∉ template.labels))) := rfl
  rw [hsaved, hnone, Option.getD_none, List.dedup_nil, List.filter_nil, setOrder_nil, rowOrder_nil]
  rfl

theorem savedPrompts_instanceGroups :
    (savedPrompts env template kwargs).instanceGroups =
      nonEmptyList (firsts (kwargs.instanceGroups.getD [])) := rfl

def carriedPrompts (env : Installation) (template : JobTemplate) (kwargs : Prompts) : Prompts :=
  { savedPrompts env template kwargs with extraVars := none, surveyPasswords := none }

theorem getJobKwargs_sliceNode {workflowJob : WorkflowJob}
    (hconfig : workflowJob.launchConfig =
      createConfigFromPrompts env template (savedKwargs env template kwargs)) (index : ℕ) :
    (getJobKwargs env template workflowJob (sliceNode index) []).prompts =
      { (template.acceptOrIgnoreJobKwargs env []
          (carriedPrompts env template kwargs)).prompted with
        extraVars := nonEmptyDict ((savedPrompts env template kwargs).extraVars.getD ∅ ∪ (∅ ∪
          (template.acceptOrIgnoreJobKwargs env []
            (carriedPrompts env template kwargs)).prompted.extraVars.getD ∅))
        surveyPasswords :=
          nonEmptyDict ((savedPrompts env template kwargs).surveyPasswords.getD ∅ ∪ ∅) } := by
  have hnode : ∀ prompts : Prompts, combinePrompts env
      ((sliceNode index).toLaunchConfig.promptsDict env) prompts = prompts := combinePrompts_empty
  rw [getJobKwargs, hconfig]
  simp only [hnode]
  rfl

theorem retaken_getJobKwargs (haccepted : Accepted env template kwargs)
    {workflowJob : WorkflowJob} (hconfig : workflowJob.launchConfig =
      createConfigFromPrompts env template (savedKwargs env template kwargs)) (index : ℕ) :
    Retaken env template kwargs
      (getJobKwargs env template workflowJob (sliceNode index) []).prompts := by
  rw [getJobKwargs_sliceNode hconfig]
  constructor
  · funext field
    exact haccepted.decideChar rfl
  · exact haccepted.decideInventory haccepted.map_inventory
  · exact haccepted.decideExecutionEnvironment rfl
  · exact haccepted.decideCredentials (savedPrompts_credentials haccepted)
  · intro label
    have hlabels : (template.decideLabels [] (carriedPrompts env template kwargs)).prompted =
        (savedPrompts env template kwargs).labels :=
      haccepted.decideLabels savedPrompts_labels_none
    change label ∈ template.labels ++
      (template.decideLabels [] (carriedPrompts env template kwargs)).prompted.getD [] ↔ _
    rw [hlabels, List.mem_append, List.mem_append, mem_savedPrompts_labels]
    by_cases hown : label ∈ template.labels
    · exact ⟨fun _ => .inl hown, fun _ => .inl hown⟩
    · rw [or_iff_right hown, or_iff_right hown, and_iff_left hown]
  · have hgroups :
        (template.decideInstanceGroups [] (carriedPrompts env template kwargs)).prompted =
          (savedPrompts env template kwargs).instanceGroups := by
      refine haccepted.decideInstanceGroups fun hnone => ?_
      rw [carriedPrompts, savedPrompts_instanceGroups, hnone]
      rfl
    change (template.decideInstanceGroups [] (carriedPrompts env template kwargs)).prompted.getD []
      = _
    rw [hgroups, savedPrompts_instanceGroups]
    cases firsts (kwargs.instanceGroups.getD []) <;> rfl
  · intro key
    have hnone : ((template.acceptOrIgnoreJobKwargs env []
        (carriedPrompts env template kwargs)).prompted.extraVars.getD ∅).lookup key = none := by
      rw [JobTemplate.acceptOrIgnoreJobKwargs]
      dsimp only
      rw [getD_nonEmptyDict]
      exact lookup_accepted_empty _ _ _ _ key
    have hsaved : (savedPrompts env template kwargs).extraVars.getD ∅ =
        (kwargs.extraVars.map (template.survey.passedVars env.surveys)).getD ∅ :=
      getD_nonEmptyDict _
    rw [getD_nonEmptyDict, lookup_combined, lookup_combined, hnone, hsaved, AList.lookup_empty,
      Option.or_none, Option.or_none]
    cases kwargs.extraVars with
    | none => exact (passedVars_empty _ _ key).symm
    | some extraVars => rfl
  · have hsaved : (savedPrompts env template kwargs).surveyPasswords.getD ∅ =
        newJobPasswords template kwargs :=
      (getD_nonEmptyDict _).trans (getD_nonEmptyDict _)
    rw [getD_nonEmptyDict, hsaved, AList.union_empty]

end Forail.SlicedLaunches
