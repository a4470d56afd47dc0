import Forail.Models.Surveys

/-!
# The variables of a catalog request

A request of the service catalog hands its variables and its answers to the node surveys
to `create_unified_job` as they were submitted.
-/

namespace Forail.CatalogVariables

open Forail.Json Forail.Surveys

/-- A template that a node can run: one with a survey, a system job template with its job
type, or one that has no variables. -/
inductive NodeTemplate where
  | survey (template : SurveyTemplate)
  | systemJob (jobType : String)
  | plain

def allowedVars : List String := ["days", "older_than", "granularity"]

def givenVars (data : Vars) : Vars :=
  (data.entries.filter fun entry => entry.1 ∈ allowedVars).toAList

/-- Whether `days` is a natural number; what is not a number at all raises. -/
def checkDays (readers : Readers) : Value → Except String Bool
  | .null => .ok false
  | .bool _ => .ok false
  | .int days =>
      if 2 ^ 1024 ≤ floatOfNat days.natAbs then .error "OverflowError"
      else .ok (decide (floatOfInt days = days ∧ 0 ≤ days))
  | .float (.finite days) =>
      .ok (decide ((if 0 ≤ days then days.floor else days.ceil) = days ∧ 0 ≤ days))
  | .float (.infinite _) => .error "OverflowError"
  | .float .nan => .ok false
  | .str text =>
      match readers.int text with
      | some days =>
          .ok (decide (floatOfNat days.natAbs < 2 ^ 1024 ∧ floatOfInt days = days ∧ 0 ≤ days))
      | none => .ok false
  | _ => .error "TypeError"

def acceptDays (readers : Readers) (acceptance : Acceptance) :
    Option Value → Except String Acceptance
  | none => .ok acceptance
  | some days =>
      match checkDays readers days with
      | .error error => .error error
      | .ok true => .ok acceptance
      | .ok false =>
          .ok
            { acceptance with
              accepted := acceptance.accepted.erase "days"
              rejected := acceptance.rejected.insert "days" days
              extraVars := acceptance.extraVars ++ ["days must be a positive integer."] }

def acceptSystemVariables (readers : Readers) (jobType : String) (data : Vars) :
    Except String Acceptance :=
  let unallowed := data.entries.filter fun entry => entry.1 ∉ allowedVars
  let errors :=
    if unallowed = [] then []
    else ["Variables " ++ String.intercalate ", " (unallowed.map Sigma.fst) ++
      " are not allowed for system jobs."]
  acceptDays readers ⟨givenVars data, unallowed.toAList, [], errors⟩
    (if jobType ∈ ["cleanup_jobs", "cleanup_activitystream"] then (givenVars data).lookup "days"
      else none)

def NodeTemplate.acceptOrIgnoreVariables (env : Surroundings) (data : Vars) :
    NodeTemplate → Except String Acceptance
  | survey template => .ok (template.acceptOrIgnoreVariables env [] [] data)
  | systemJob jobType => acceptSystemVariables env.readers jobType data
  | plain =>
      let errors :=
        if data.entries = [] then []
        else ["Variables " ++ String.intercalate ", " data.keys ++
          " provided, but this template cannot accept variables."]
      .ok ⟨∅, data, [], errors⟩

/-- A node of a workflow template, and the node of a workflow job that is copied from it. -/
structure WorkflowNode where
  identifier : String
  unifiedJobTemplate : Option NodeTemplate
  extraData : Vars

structure WorkflowJobTemplate extends SurveyTemplate where
  nodes : List WorkflowNode

structure ServiceCatalogItem where
  jobTemplate : Option SurveyTemplate
  workflowJobTemplate : Option WorkflowJobTemplate

/-- The submitted dictionaries; an answer to the survey of a node can be any value. -/
structure ServiceRequest where
  extraVars : Vars
  nodeSurveyData : Vars

structure UnifiedJob where
  extraVars : Vars
  nodes : List WorkflowNode

def answers (nodeSurveyData : Vars) (node : WorkflowNode) : Vars :=
  match nodeSurveyData.lookup node.identifier with
  | some (.dict entries) => (entries.map fun entry => ⟨entry.1, entry.2⟩).toAList
  | _ => ∅

def applyAnswers (nodeSurveyData : Vars) (node : WorkflowNode) : WorkflowNode :=
  { node with extraData := answers nodeSurveyData node ∪ node.extraData }

def WorkflowJobTemplate.createUnifiedJob (env : Surroundings) (template : WorkflowJobTemplate)
    (extraVars nodeSurveyData : Vars) : UnifiedJob where
  extraVars := template.toSurveyTemplate.createUnifiedJob env extraVars
  nodes := template.nodes.map (applyAnswers nodeSurveyData)

/-- `_launch`.  A job template drops the answers to node surveys; a job that is sliced has
the same variables. -/
def launch (env : Surroundings) (item : ServiceCatalogItem) (request : ServiceRequest) :
    Option UnifiedJob :=
  match item.jobTemplate with
  | some template => some ⟨template.createUnifiedJob env request.extraVars, []⟩
  | none =>
      item.workflowJobTemplate.map fun template =>
        template.createUnifiedJob env request.extraVars request.nodeSurveyData

def underlyingTemplate (item : ServiceCatalogItem) : Option WorkflowJobTemplate :=
  match item.jobTemplate with
  | some template => some { template with nodes := [] }
  | none => item.workflowJobTemplate

def AcceptedBy (env : Surroundings) (template : Option NodeTemplate) (data : Vars)
    (key : String) : Prop :=
  ∃ node ∈ template, ∃ acceptance, node.acceptOrIgnoreVariables env data = .ok acceptance ∧
    key ∈ acceptance.accepted

/-- What a template lets a launch set: questions whose values are valid, other variables
when the template asks for them, and the variables of system jobs. -/
def NodeTemplate.Permits (env : Surroundings) (data : Vars) (key : String) : NodeTemplate → Prop
  | survey template => ∃ value, data.lookup key = some value ∧ template.Permits env key value
  | systemJob jobType =>
      key ∈ data ∧ key ∈ allowedVars ∧
        (jobType ∈ ["cleanup_jobs", "cleanup_activitystream"] →
          ∀ days, data.lookup "days" = some days →
            checkDays env.readers days = .ok true ∨
              (checkDays env.readers days = .ok false ∧ key ≠ "days"))
  | plain => False

/-- A node of the new job differs from the node of the template in accepted variables. -/
structure NodeOnlyAccepted (env : Surroundings) (nodeSurveyData : Vars)
    (node launched : WorkflowNode) : Prop where
  accepted : ∀ key, launched.extraData.lookup key ≠ node.extraData.lookup key →
    AcceptedBy env node.unifiedJobTemplate (answers nodeSurveyData node) key
  refused : ∀ key, (∀ template ∈ node.unifiedJobTemplate,
      ¬ template.Permits env (answers nodeSurveyData node) key) →
    launched.extraData.lookup key = node.extraData.lookup key

/-- The variables of the job and of its nodes differ from those of the template where the
template they are passed to has accepted them, and what it does not permit does not reach
them. -/
structure OnlyAccepted (env : Surroundings) (request : ServiceRequest)
    (template : WorkflowJobTemplate) (job : UnifiedJob) : Prop where
  accepted : ∀ key, job.extraVars.lookup key ≠ (template.ownVars env).lookup key →
    AcceptedBy env (some (.survey template.toSurveyTemplate)) request.extraVars key
  refused : ∀ key value, request.extraVars.lookup key = some value →
    ¬ template.Permits env key value →
    job.extraVars.lookup key = (template.ownVars env).lookup key
  nodes : List.Forall₂ (NodeOnlyAccepted env request.nodeSurveyData) template.nodes job.nodes

/-- Every submitted variable is permitted, or is passed on as the value that the template
has itself, or is a password that is kept; an answer is permitted or is the value of the
node. -/
structure Submittable (env : Surroundings) (request : ServiceRequest)
    (template : WorkflowJobTemplate) : Prop where
  extraVars : ∀ key value, request.extraVars.lookup key = some value →
    template.Permits env key value ∨
      launchedValue env template.toSurveyTemplate key value = none ∨
      launchedValue env template.toSurveyTemplate key value = (template.ownVars env).lookup key
  nodeSurveyData : ∀ node ∈ template.nodes, ∀ key value,
    (answers request.nodeSurveyData node).lookup key = some value →
    (∃ other ∈ node.unifiedJobTemplate,
      other.Permits env (answers request.nodeSurveyData node) key) ∨
      node.extraData.lookup key = some value

variable {env : Surroundings} {key : String} {data : Vars}

theorem lookup_givenVars (hallowed : key ∈ allowedVars) :
    (givenVars data).lookup key = data.lookup key := by
  rw [givenVars, lookup_filter fun key => decide (key ∈ allowedVars), if_pos (decide_eq_true hallowed)]

theorem mem_givenVars : key ∈ givenVars data ↔ key ∈ data ∧ key ∈ allowedVars := by
  rw [← AList.lookup_isSome, givenVars, lookup_filter fun key => decide (key ∈ allowedVars)]
  by_cases hallowed : key ∈ allowedVars
  · rw [if_pos (decide_eq_true hallowed), AList.lookup_isSome, and_iff_left hallowed]
  · rw [if_neg fun hmem => hallowed (of_decide_eq_true hmem)]
    exact ⟨fun hsome => absurd hsome Bool.false_ne_true, fun hmem => absurd hmem.2 hallowed⟩

theorem mem_acceptDays {readers : Readers} {acceptance : Acceptance} (days : Option Value) :
    (∃ result, acceptDays readers acceptance days = .ok result ∧ key ∈ result.accepted) ↔
      key ∈ acceptance.accepted ∧ ∀ value, days = some value →
        checkDays readers value = .ok true ∨ (checkDays readers value = .ok false ∧ key ≠ "days") := by
  cases days with
  | none => simp [acceptDays]
  | some days =>
    rw [acceptDays]
    cases hcheck : checkDays readers days with
    | error error => simp [hcheck]
    | ok valid =>
      cases valid with
      | true => simp [hcheck]
      | false => simp [hcheck, AList.mem_erase, and_comm]

theorem acceptedBy_systemJob (jobType : String) :
    (∃ acceptance, acceptSystemVariables env.readers jobType data = .ok acceptance ∧
      key ∈ acceptance.accepted) ↔ (NodeTemplate.systemJob jobType).Permits env data key := by
  rw [acceptSystemVariables, mem_acceptDays, mem_givenVars, and_assoc, lookup_givenVars List.mem_cons_self]
  unfold NodeTemplate.Permits
  apply and_congr_right
  intro _
  apply and_congr_right
  intro _
  split
  · next hcleanup => exact ⟨fun hdays _ => hdays, fun hdays => hdays hcleanup⟩
  · next hother =>
    exact ⟨fun _ hcleanup => absurd hcleanup hother,
      fun _ _ hnone => absurd hnone.symm (Option.some_ne_none _)⟩

theorem acceptedBy_iff (template : NodeTemplate) :
    (∃ acceptance, template.acceptOrIgnoreVariables env data = .ok acceptance ∧
      key ∈ acceptance.accepted) ↔ template.Permits env data key := by
  cases template with
  | survey template =>
    constructor
    · rintro ⟨_, haccept, hmem⟩
      obtain rfl := Except.ok.inj haccept
      exact mem_accepted_iff data |>.mp hmem
    · exact fun hpermits => ⟨_, rfl, mem_accepted_iff data |>.mpr hpermits⟩
  | systemJob jobType => exact acceptedBy_systemJob jobType
  | plain =>
    constructor
    · rintro ⟨_, haccept, hmem⟩
      obtain rfl := Except.ok.inj haccept
      exact absurd hmem (AList.notMem_empty key)
    · exact False.elim

theorem acceptedBy_option (template : Option NodeTemplate) :
    AcceptedBy env template data key ↔ ∃ other ∈ template, other.Permits env data key :=
  exists_congr fun other => and_congr_right fun _ => acceptedBy_iff other

theorem nodeOnlyAccepted_iff (nodeSurveyData : Vars) (node : WorkflowNode) :
    NodeOnlyAccepted env nodeSurveyData node (applyAnswers nodeSurveyData node) ↔
      ∀ key value, (answers nodeSurveyData node).lookup key = some value →
        (∃ other ∈ node.unifiedJobTemplate,
          other.Permits env (answers nodeSurveyData node) key) ∨
          node.extraData.lookup key = some value := by
  constructor
  · intro honly key value hvalue
    by_cases hsame : node.extraData.lookup key = some value
    · exact .inr hsame
    · have hchanged := lookup_union_ne.mpr ⟨value, hvalue, hsame⟩
      exact .inl (acceptedBy_option _ |>.mp (honly.accepted key hchanged))
  · intro hsubmittable
    have hpermitted : ∀ key, (applyAnswers nodeSurveyData node).extraData.lookup key ≠
        node.extraData.lookup key → ∃ other ∈ node.unifiedJobTemplate,
          other.Permits env (answers nodeSurveyData node) key := by
      intro key hchanged
      obtain ⟨value, hvalue, hother⟩ := lookup_union_ne.mp hchanged
      exact (hsubmittable key value hvalue).resolve_right hother
    constructor
    · exact fun key hchanged => acceptedBy_option _ |>.mpr (hpermitted key hchanged)
    · intro key hrefused
      by_contra hchanged
      obtain ⟨other, hmem, hpermits⟩ := hpermitted key hchanged
      exact hrefused other hmem hpermits

/-! ## The launch -/

variable {request : ServiceRequest} {template : WorkflowJobTemplate} {job : UnifiedJob}

structure Launched (env : Surroundings) (request : ServiceRequest)
    (template : WorkflowJobTemplate) (job : UnifiedJob) : Prop where
  extraVars : job.extraVars = template.toSurveyTemplate.createUnifiedJob env request.extraVars
  nodes : job.nodes = template.nodes.map (applyAnswers request.nodeSurveyData)

theorem launched_of_launch {item : ServiceCatalogItem}
    (htemplate : underlyingTemplate item = some template)
    (hlaunch : launch env item request = some job) : Launched env request template job := by
  rw [underlyingTemplate] at htemplate
  rw [launch] at hlaunch
  split at htemplate
  · next jobTemplate hjobTemplate =>
    rw [hjobTemplate] at hlaunch
    obtain rfl := Option.some.inj htemplate
    obtain rfl := Option.some.inj hlaunch
    exact ⟨rfl, rfl⟩
  · next hnone =>
    rw [hnone, htemplate] at hlaunch
    obtain rfl := Option.some.inj hlaunch
    exact ⟨rfl, rfl⟩

theorem exists_launch {item : ServiceCatalogItem} (env : Surroundings) (request : ServiceRequest)
    (htemplate : underlyingTemplate item = some template) :
    ∃ job, launch env item request = some job := by
  rw [underlyingTemplate] at htemplate
  rw [launch]
  split at htemplate
  · exact ⟨_, rfl⟩
  · rw [htemplate]
    exact ⟨_, rfl⟩

theorem extraVars_ne_iff (hjob : Launched env request template job) :
    job.extraVars.lookup key ≠ (template.ownVars env).lookup key ↔
      ∃ value, request.extraVars.lookup key = some value ∧
        launchedValue env template.toSurveyTemplate key value ≠ none ∧
        launchedValue env template.toSurveyTemplate key value ≠
          (template.ownVars env).lookup key := by
  rw [hjob.extraVars, lookup_createUnifiedJob]
  cases request.extraVars.lookup key with
  | none => simp
  | some value =>
    cases hlaunched : launchedValue env template.toSurveyTemplate key value with
    | none => simp [hlaunched]
    | some launched => simp [hlaunched]

theorem onlyAccepted_iff (hjob : Launched env request template job) :
    OnlyAccepted env request template job ↔ Submittable env request template := by
  have hnodes : List.Forall₂ (NodeOnlyAccepted env request.nodeSurveyData) template.nodes job.nodes ↔
      ∀ node ∈ template.nodes, ∀ key value,
        (answers request.nodeSurveyData node).lookup key = some value →
        (∃ other ∈ node.unifiedJobTemplate,
          other.Permits env (answers request.nodeSurveyData node) key) ∨
          node.extraData.lookup key = some value := by
    rw [hjob.nodes, List.forall₂_map_right_iff, List.forall₂_same]
    exact forall₂_congr fun node _ => nodeOnlyAccepted_iff request.nodeSurveyData node
  constructor
  · intro honly
    refine ⟨fun key value hvalue => ?_, hnodes.mp honly.nodes⟩
    by_cases hdropped : launchedValue env template.toSurveyTemplate key value = none
    · exact .inr (.inl hdropped)
    · by_cases hown : launchedValue env template.toSurveyTemplate key value =
          (template.ownVars env).lookup key
      · exact .inr (.inr hown)
      · have hchanged := (extraVars_ne_iff hjob).mpr ⟨value, hvalue, hdropped, hown⟩
        obtain ⟨_, hsurvey, hpermits⟩ := (acceptedBy_option _).mp (honly.accepted key hchanged)
        obtain rfl := Option.some.inj hsurvey
        obtain ⟨submitted, hsubmitted, hfits⟩ := hpermits
        obtain rfl := Option.some.inj (hvalue.symm.trans hsubmitted)
        exact .inl hfits
  · intro hsubmittable
    have hpermitted : ∀ key, job.extraVars.lookup key ≠ (template.ownVars env).lookup key →
        ∃ value, request.extraVars.lookup key = some value ∧ template.Permits env key value := by
      intro key hchanged
      obtain ⟨value, hvalue, hpassed, hother⟩ := (extraVars_ne_iff hjob).mp hchanged
      have hallowed := (hsubmittable.extraVars key value hvalue).resolve_right
        fun hsame => hsame.elim hpassed hother
      exact ⟨value, hvalue, hallowed⟩
    refine ⟨fun key hchanged => ?_, fun key value hvalue hrefused => ?_,
      hnodes.mpr hsubmittable.nodeSurveyData⟩
    · exact (acceptedBy_option _).mpr ⟨_, rfl, hpermitted key hchanged⟩
    · by_contra hchanged
      obtain ⟨submitted, hsubmitted, hpermits⟩ := hpermitted key hchanged
      obtain rfl := Option.some.inj (hvalue.symm.trans hsubmitted)
      exact hrefused hpermits

def LaunchesAccepted (env : Surroundings) (item : ServiceCatalogItem)
    (request : ServiceRequest) : Prop :=
  ∀ template job, underlyingTemplate item = some template →
    launch env item request = some job → OnlyAccepted env request template job

/-- **Accepted variables.**  A launch sets accepted variables only when every submitted
variable and answer is permitted, or brings nothing new. -/
theorem launches_accepted_iff (env : Surroundings) (item : ServiceCatalogItem)
    (request : ServiceRequest) :
    LaunchesAccepted env item request ↔
      ∀ template, underlyingTemplate item = some template → Submittable env request template := by
  constructor
  · intro haccepted template htemplate
    obtain ⟨job, hlaunch⟩ := exists_launch env request htemplate
    exact (onlyAccepted_iff (launched_of_launch htemplate hlaunch)).mp
      (haccepted template job htemplate hlaunch)
  · intro hsubmittable template job htemplate hlaunch
    exact (onlyAccepted_iff (launched_of_launch htemplate hlaunch)).mpr
      (hsubmittable template htemplate)

/-! ### A template without prompts -/

def plainSurroundings : Surroundings where
  texts := ⟨fun _ => "", fun _ => ""⟩
  readers := ⟨fun _ => .error .valueError, fun _ => none⟩
  encrypt := id
  decrypt := id
  resolve := fun _ => []

def withoutPrompts : SurveyTemplate where
  surveyEnabled := false
  spec := []
  askVariablesOnLaunch := false
  extraVarsDict := ∅
  verboseName := "Job Template"

def limitRequest : ServiceRequest where
  extraVars := AList.singleton "target_hosts" (.str "all")
  nodeSurveyData := ∅

theorem unprompted_variable_launched :
    ¬ ∀ env item request, LaunchesAccepted env item request := by
  intro hclaim
  have honly := hclaim plainSurroundings ⟨some withoutPrompts, none⟩ limitRequest
    { withoutPrompts with nodes := [] } _ rfl rfl
  have hunchanged := honly.refused "target_hosts" (.str "all") rfl Bool.false_ne_true
  cases hunchanged

end Forail.CatalogVariables
