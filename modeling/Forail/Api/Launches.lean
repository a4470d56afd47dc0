import Forail.Models.ServiceRequests
import Forail.Policy.Evaluator
import Forail.Tenancy.Quota

/-!
# Launching jobs

The launch views of job templates and workflow templates put every new job
through the gates before they start it.  Relaunches, requests of the service
catalog and the starts that nobody asks for over the API create and start their
jobs on their own.  The quota gate holds the usage row of the tenant to the end
of the request, so the launches of a tenant take effect one after the other.
-/

namespace Forail.Launches

open Forail.PolicyEvaluator Forail.ServiceCatalog Forail.TenantQuota Forail.UnifiedJobs

structure LaunchJob extends Job where
  kind : JobKind
  jobExplanation : String
  deriving DecidableEq, Repr

def resourceType : JobKind → String
  | .job => "job_template"
  | .workflowJob => "workflow_job_template"
  | .adHocCommand => "ad_hoc_command"
  | .projectUpdate => "projectupdate"
  | .inventoryUpdate => "inventoryupdate"
  | .systemJob => "systemjob"
  | .workflowApproval => "workflowapproval"

/-- A new row with the given prompts.  Only jobs and ad hoc commands have
credentials that ask for passwords. -/
def createUnifiedJob (kind : JobKind) (prompts : Job) : LaunchJob where
  template := prompts.template
  status := .new
  createdBy := prompts.createdBy
  extraVars := prompts.extraVars
  nodeSurveyData := prompts.nodeSurveyData
  passwordsNeeded := if kind = .job ∨ kind = .adHocCommand then prompts.passwordsNeeded else []
  kind := kind
  jobExplanation := ""

namespace LaunchJob

variable (job : LaunchJob)

def withStatus (status : JobStatus) : LaunchJob :=
  { job with status := status }

def signalStart (passwords : Vars) : LaunchJob × Bool :=
  let started := job.toJob.signalStart passwords
  ({ job with toJob := started.1 }, started.2)

def warned (label : String) (messages : List String) : LaunchJob :=
  if messages = [] then job
  else
    let explanation := job.jobExplanation ++ "\n" ++ label ++ String.intercalate "; " messages
    { job with jobExplanation := String.ofList (explanation.toList.take 1024) }

end LaunchJob

structure ScanRunResult where
  allowed : Bool
  warnMessages : List String
  blockMessages : List String
  deriving DecidableEq, Repr

inductive Response where
  | created (job : JobId)
  | tooManyRequests (reasons : List String)
  | forbidden (detail : String) (reasons : List String)
  | passwordsNeededToStart (fields : List String)
  | errorStarting
  deriving DecidableEq, Repr

/-- What has happened to a job on its way: the gates that accepted it, whether
the quota gate counted it, and whether `signal_start` accepted it. -/
structure GateRecord where
  quota : Bool
  counted : Bool
  policy : Bool
  scanner : Bool
  started : Bool
  deriving DecidableEq, Repr

/-- The row of a job as it was created, and as it is now; `job` is `none` once
the row is deleted. -/
structure Entry where
  created : LaunchJob
  gates : GateRecord
  job : Option LaunchJob
  deriving DecidableEq, Repr

structure CatalogRequest where
  item : ServiceCatalogItem
  request : ServiceRequest
  deriving DecidableEq, Repr

/-- The jobs of one tenant and what decides over their launches.  `opa` is the
policy server, which is given a document about the job. -/
structure LaunchState where
  tenancyEnabled : Bool
  organization : Organization
  usage : Option TenantUsage
  policies : PolicySettings
  opa : LaunchJob → Policy → OpaAnswer
  entries : List Entry
  requests : List CatalogRequest

structure LaunchRequest where
  kind : JobKind
  prompts : Job
  passwords : Vars
  now : TenantQuota.Time
  scan : ScanRunResult
  deriving DecidableEq, Repr

/-- The gates have answered: the job goes on with its warnings, or the view
deletes it and responds. -/
structure GateOutcome where
  gates : GateRecord
  usage : Option TenantUsage
  job : LaunchJob
  response : Option Response
  deriving DecidableEq, Repr

structure CatalogJob where
  kind : JobKind
  passwordsNeeded : List String
  deriving DecidableEq, Repr

namespace LaunchState

variable (state : LaunchState)

def job? (id : JobId) : Option LaunchJob :=
  (state.entries[id]?).bind Entry.job

def evaluateLaunch (job : LaunchJob) : PolicyDecisionResult :=
  PolicyEvaluator.evaluateLaunch state.policies (resourceType job.kind) (state.opa job)

def runGates (request : LaunchRequest) (job : LaunchJob) : GateOutcome :=
  let quota := checkTenantQuota state.tenancyEnabled (some state.organization) request.now
    state.usage
  let counted := Metered state.tenancyEnabled (some state.organization) && quota.1.allowed
  if ¬ quota.1.allowed then
    { gates := ⟨false, counted, false, false, false⟩
      usage := quota.2
      job := job
      response := some (.tooManyRequests quota.1.reasons) }
  else
    let policy := state.evaluateLaunch job
    if ¬ policy.allowed then
      { gates := ⟨true, counted, false, false, false⟩
        usage := quota.2
        job := job
        response := some (.forbidden "Policy denied launch." policy.denyMessages) }
    else
      let job := job.warned "Policy warnings: " policy.warnMessages
      if ¬ request.scan.allowed then
        { gates := ⟨true, counted, true, false, false⟩
          usage := quota.2
          job := job
          response := some (.forbidden "Scanner blocked launch." request.scan.blockMessages) }
      else
        { gates := ⟨true, counted, true, true, false⟩
          usage := quota.2
          job := job.warned "Scan warnings: " request.scan.warnMessages
          response := none }

def record (usage : Option TenantUsage) (job : LaunchJob) (gates : GateRecord)
    (row : Option LaunchJob) : LaunchState :=
  { state with
    usage := usage
    entries := state.entries ++ [⟨job, gates, row⟩] }

def changeRow (id : JobId) (change : Option LaunchJob → Option LaunchJob) : LaunchState :=
  { state with
    entries := state.entries.modify id fun entry => { entry with job := change entry.job } }

/-- `JobTemplateLaunch.post`; a sliced launch creates a workflow job. -/
def jobTemplateLaunch (request : LaunchRequest) : Response × LaunchState :=
  let newJob := createUnifiedJob request.kind request.prompts
  let outcome := state.runGates request newJob
  match outcome.response with
  | some response => (response, state.record outcome.usage newJob outcome.gates none)
  | none =>
      let result := outcome.job.signalStart request.passwords
      if result.2 then
        (.created state.entries.length, state.record outcome.usage newJob
          { outcome.gates with started := true } (some result.1))
      else
        (.passwordsNeededToStart outcome.job.passwordsNeeded,
          state.record outcome.usage newJob outcome.gates none)

/-- `WorkflowJobTemplateLaunch.post`, which does not look at the answer of
`signal_start`. -/
def workflowJobTemplateLaunch (request : LaunchRequest) : Response × LaunchState :=
  let newJob := createUnifiedJob .workflowJob request.prompts
  let outcome := state.runGates request newJob
  match outcome.response with
  | some response => (response, state.record outcome.usage newJob outcome.gates none)
  | none =>
      let result := outcome.job.signalStart []
      (.created state.entries.length, state.record outcome.usage newJob
        { outcome.gates with started := result.2 } (some result.1))

def startUngated (job : LaunchJob) (passwords : Vars) : LaunchState :=
  let result := job.signalStart passwords
  state.record state.usage job ⟨false, false, false, false, result.2⟩ (some result.1)

def jobRelaunch (prompts : Job) (passwords : Vars) : Response × LaunchState :=
  let newJob := createUnifiedJob .job prompts
  if (newJob.signalStart passwords).2 then
    (.created state.entries.length, state.startUngated newJob passwords)
  else
    (.errorStarting, state.record state.usage newJob ⟨false, false, false, false, false⟩ none)

def workflowJobRelaunch (prompts : Job) : Response × LaunchState :=
  (.created state.entries.length, state.startUngated (createUnifiedJob .workflowJob prompts) [])

def launchCatalogRequest (index : ℕ) (catalog : CatalogRequest) (created : Option CatalogJob) :
    LaunchState :=
  match catalog.item.underlyingTemplate, created with
  | some template, some created =>
      let newJob := createUnifiedJob created.kind
        (catalog.request.createUnifiedJob catalog.item template created.passwordsNeeded)
      { state.startUngated newJob [] with
        requests := state.requests.set index
          { catalog with request := catalog.request.linked state.entries.length } }
  | _, _ =>
      { state with
        requests := state.requests.set index
          { catalog with request := catalog.request.withStatus .failed } }

def submitRequest (catalog : CatalogRequest) (now : ServiceCatalog.Time)
    (created : Option CatalogJob) : LaunchState :=
  if catalog.item.requiresApproval then
    { state with requests := state.requests ++ [catalog] }
  else
    let approved := { catalog with request := catalog.request.approved none now }
    { state with requests := state.requests ++ [approved] }.launchCatalogRequest
      state.requests.length approved created

/-- `ServiceRequest.approve`, which raises for a request that is not pending and
for a user who may not approve it. -/
def approveRequest (index : ℕ) (user : User) (now : ServiceCatalog.Time)
    (created : Option CatalogJob) : Option LaunchState :=
  match state.requests[index]? with
  | some catalog =>
      if catalog.request.status = .pendingApproval ∧ catalog.item.canUserApprove user then
        let approved := { catalog with request := catalog.request.approved (some user.id) now }
        some (state.launchCatalogRequest index approved created)
      else none
  | none => none

end LaunchState

inductive LaunchView where
  | jobTemplate
  | workflowJobTemplate
  deriving DecidableEq, Repr

def LaunchState.launch (state : LaunchState) : LaunchView → LaunchRequest → Response × LaunchState
  | .jobTemplate, request => state.jobTemplateLaunch request
  | .workflowJobTemplate, request => state.workflowJobTemplateLaunch request

inductive Event where
  | launch (view : LaunchView) (request : LaunchRequest)
  /-- The copy takes its prompts from the job. -/
  | jobRelaunch (job : JobId) (createdBy : Option UserId) (passwordsNeeded : List String)
      (passwords : Vars)
  | workflowJobRelaunch (job : JobId) (createdBy : Option UserId)
  | submitRequest (item : ServiceCatalogItem) (requestedBy : Option UserId)
      (extraVars nodeSurveyData : Vars) (now : ServiceCatalog.Time) (created : Option CatalogJob)
  | approveRequest (index : ℕ) (user : User) (now : ServiceCatalog.Time)
      (created : Option CatalogJob)
  /-- Schedules, updates of projects and inventories, nodes of workflows. -/
  | otherStart (kind : JobKind) (prompts : Job)
  | saveJob (job : JobId) (status : JobStatus)
  | deleteJob (job : JobId)
  | updateOrganization (organization : Organization)
  | updatePolicies (policies : PolicySettings) (opa : LaunchJob → Policy → OpaAnswer)

/-- A request that is refused before it creates a job, or that raises, is rolled
back and leaves no trace. -/
def step (state : LaunchState) : Event → Option LaunchState
  | .launch view request => some (state.launch view request).2
  | .jobRelaunch id createdBy passwordsNeeded passwords =>
      match state.job? id with
      | some job =>
          if job.kind = .job then
            some (state.jobRelaunch { job.toJob with
              createdBy := createdBy, passwordsNeeded := passwordsNeeded } passwords).2
          else none
      | none => none
  | .workflowJobRelaunch id createdBy =>
      match state.job? id with
      | some job =>
          if job.kind = .workflowJob then
            some (state.workflowJobRelaunch { job.toJob with createdBy := createdBy }).2
          else none
      | none => none
  | .submitRequest item requestedBy extraVars nodeSurveyData now created =>
      let request := ServiceRequests.RequestState.newRequest requestedBy extraVars nodeSurveyData
      some (state.submitRequest ⟨item, request⟩ now created)
  | .approveRequest index user now created => state.approveRequest index user now created
  | .otherStart kind prompts => some (state.startUngated (createUnifiedJob kind prompts) [])
  | .saveJob id status =>
      match state.job? id with
      | some job =>
          -- a new job is started by `signal_start` only, and may be canceled before
          if status = .new ∨ job.status = .new ∧ status.Active then none
          else
            some { state.changeRow id fun row => row.map fun job => job.withStatus status with
              usage := postSave (.subclass job.kind) (some state.organization) false status
                state.usage }
      | none => none
  | .deleteJob id =>
      match state.job? id with
      | some job =>
          if job.status.Active ∧ job.status ≠ .new then none
          else some (state.changeRow id fun _ => none)
      | none => none
  | .updateOrganization organization => some { state with organization := organization }
  | .updatePolicies policies opa => some { state with policies := policies, opa := opa }

def initial (tenancyEnabled : Bool) (organization : Organization) (usage : Option TenantUsage)
    (policies : PolicySettings) (opa : LaunchJob → Policy → OpaAnswer) : LaunchState where
  tenancyEnabled := tenancyEnabled
  organization := organization
  usage := usage.map fun usage => { usage with concurrentJobsCount := 0 }
  policies := policies
  opa := opa
  entries := []
  requests := []

/-! ## What the views do -/

def LaunchView.newJob (request : LaunchRequest) : LaunchView → LaunchJob
  | jobTemplate => createUnifiedJob request.kind request.prompts
  | workflowJobTemplate => createUnifiedJob .workflowJob request.prompts

def LaunchView.passwords (request : LaunchRequest) : LaunchView → Vars
  | jobTemplate => request.passwords
  | workflowJobTemplate => []

def PasswordsGiven (fields : List String) (passwords : Vars) : Prop :=
  ∀ field ∈ fields, ∃ entry ∈ passwords, entry.1 = field ∧ entry.2 ≠ ""

variable {state : LaunchState} {view : LaunchView} {request : LaunchRequest} {job : LaunchJob}

@[simp]
theorem newJob_status : (view.newJob request).status = .new := by
  cases view <;> rfl

@[simp]
theorem toJob_warned (label : String) (messages : List String) :
    (job.warned label messages).toJob = job.toJob := by
  rw [LaunchJob.warned]
  split <;> rfl

theorem signalStart_accepted_iff {job : Job} (hnew : job.status = .new) (passwords : Vars) :
    (job.signalStart passwords).2 = true ↔ PasswordsGiven job.passwordsNeeded passwords := by
  rw [Job.signalStart, if_neg (by rw [hnew]; decide), PasswordsGiven]
  split
  · next hall =>
    refine iff_of_true rfl fun field hfield => ?_
    simpa using List.all_eq_true.mp hall field hfield
  · next hall =>
    refine iff_of_false Bool.false_ne_true fun hgiven => hall ?_
    exact List.all_eq_true.mpr fun field hfield => by simpa using hgiven field hfield

theorem active_signalStart {job : Job} (hactive : job.status.Active) (passwords : Vars) :
    (job.signalStart passwords).1.status.Active := by
  rw [Job.signalStart]
  split
  · exact hactive
  · split
    · exact (by decide : JobStatus.pending.Active)
    · exact hactive

namespace LaunchState

theorem launch_eq (view : LaunchView) (request : LaunchRequest) :
    state.launch view request =
      let newJob := view.newJob request
      let outcome := state.runGates request newJob
      match outcome.response with
      | some response => (response, state.record outcome.usage newJob outcome.gates none)
      | none =>
          let result := outcome.job.signalStart (view.passwords request)
          if view = .workflowJobTemplate ∨ result.2 then
            (.created state.entries.length, state.record outcome.usage newJob
              { outcome.gates with started := result.2 } (some result.1))
          else
            (.passwordsNeededToStart outcome.job.passwordsNeeded,
              state.record outcome.usage newJob outcome.gates none) := by
  cases view with
  | jobTemplate =>
    simp only [launch, jobTemplateLaunch, LaunchView.newJob, LaunchView.passwords, reduceCtorEq,
      false_or]
    split
    · rfl
    · split
      · next haccepted => simp only [haccepted]
      · rfl
  | workflowJobTemplate =>
    simp only [launch, workflowJobTemplateLaunch, LaunchView.newJob, LaunchView.passwords,
      true_or, if_true]

theorem usage_runGates :
    (state.runGates request job).usage =
      (checkTenantQuota state.tenancyEnabled (some state.organization) request.now
        state.usage).2 := by
  simp only [runGates]
  split
  · rfl
  · split
    · rfl
    · split <;> rfl

theorem counted_runGates :
    (state.runGates request job).gates.counted =
      (Metered state.tenancyEnabled (some state.organization) &&
        (checkTenantQuota state.tenancyEnabled (some state.organization) request.now
          state.usage).1.allowed) := by
  simp only [runGates]
  split
  · rfl
  · split
    · rfl
    · split <;> rfl

theorem response_runGates_eq_none_iff :
    (state.runGates request job).response = none ↔
      (checkTenantQuota state.tenancyEnabled (some state.organization) request.now
        state.usage).1.allowed = true ∧ (state.evaluateLaunch job).allowed = true ∧
          request.scan.allowed = true := by
  simp only [runGates]
  split
  · next hquota => simp [hquota]
  · next hquota =>
    split
    · next hpolicy => simp [hpolicy]
    · next hpolicy =>
      split
      · next hscan => simp [hscan]
      · next hscan => simp [not_not.mp hquota, not_not.mp hpolicy, not_not.mp hscan]

theorem gates_of_response_none (hresponse : (state.runGates request job).response = none) :
    (state.runGates request job).gates =
      ⟨true, (state.runGates request job).gates.counted, true, true, false⟩ := by
  obtain ⟨hquota, hpolicy, hscan⟩ := response_runGates_eq_none_iff.mp hresponse
  simp only [runGates, hquota, hpolicy, hscan, not_true_eq_false, if_false]

theorem started_runGates : (state.runGates request job).gates.started = false := by
  simp only [runGates]
  split
  · rfl
  · split
    · rfl
    · split <;> rfl

theorem toJob_runGates : (state.runGates request job).job.toJob = job.toJob := by
  simp only [runGates]
  split
  · rfl
  · split
    · rfl
    · split <;> simp

theorem gates_changeRow (id : JobId) (change : Option LaunchJob → Option LaunchJob) :
    (state.changeRow id change).entries.map Entry.gates = state.entries.map Entry.gates := by
  apply List.ext_getElem?
  intro position
  rw [changeRow, List.getElem?_map, List.getElem?_map, List.getElem?_modify]
  cases state.entries[position]? with
  | none => rfl
  | some entry => by_cases hposition : id = position <;> simp [hposition]

end LaunchState

theorem forall_entries_concat {state' : LaunchState} {property : Entry → Prop} {entry : Entry}
    (hall : ∀ entry ∈ state.entries, property entry)
    (hentries : state'.entries = state.entries ++ [entry]) (hentry : property entry) :
    ∀ entry ∈ state'.entries, property entry := by
  rw [hentries]
  exact List.forall_mem_append.mpr ⟨hall, List.forall_mem_singleton.mpr hentry⟩

/-! ## What a step does -/

def CatalogStarts (item : ServiceCatalogItem) (created : Option CatalogJob) : Prop :=
  item.underlyingTemplate ≠ none ∧
    ∃ job, created = some job ∧ (job.kind = .job ∨ job.kind = .adHocCommand →
      job.passwordsNeeded = [])

def StartsUngated (state : LaunchState) : Event → Prop
  | .jobRelaunch _ _ passwordsNeeded passwords => PasswordsGiven passwordsNeeded passwords
  | .workflowJobRelaunch _ _ => True
  | .submitRequest item _ _ _ _ created => ¬ item.requiresApproval ∧ CatalogStarts item created
  | .approveRequest index user _ created =>
      ∃ catalog, state.requests[index]? = some catalog ∧
        catalog.request.status = .pendingApproval ∧ catalog.item.canUserApprove user ∧
        CatalogStarts catalog.item created
  | .otherStart _ _ => True
  | _ => False

/-- A step launches a job through a view, creates one without the gates, saves or
deletes the row of a job, or does nothing that concerns the jobs. -/
inductive Effect (state : LaunchState) : Event → LaunchState → Prop where
  | launched (view : LaunchView) (request : LaunchRequest) :
      Effect state (.launch view request) (state.launch view request).2
  | ungated {event : Event} {state' : LaunchState} (job : LaunchJob) (started : Bool)
      (row : Option LaunchJob) (hstarted : started = true → StartsUngated state event)
      (hentries : state'.entries =
        state.entries ++ [⟨job, ⟨false, false, false, false, started⟩, row⟩])
      (husage : state'.usage = state.usage) : Effect state event state'
  | saved {state' : LaunchState} (id : JobId) (status : JobStatus)
      (hentries : state'.entries =
        (state.changeRow id fun row => row.map fun job => job.withStatus status).entries)
      (husage : state'.usage = state.usage) : Effect state (.saveJob id status) state'
  | deleted {state' : LaunchState} (id : JobId)
      (hentries : state'.entries = (state.changeRow id fun _ => none).entries)
      (husage : state'.usage = state.usage) : Effect state (.deleteJob id) state'
  | quiet {event : Event} {state' : LaunchState} (hentries : state'.entries = state.entries)
      (husage : state'.usage = state.usage) : Effect state event state'

variable {state' base : LaunchState} {event : Event}

theorem passwordsGiven_nil_iff {fields : List String} : PasswordsGiven fields [] ↔ fields = [] := by
  simp [PasswordsGiven, List.eq_nil_iff_forall_not_mem]

theorem effect_launchCatalogRequest {catalog : CatalogRequest} {created : Option CatalogJob}
    (index : ℕ) (hentries : base.entries = state.entries) (husage : base.usage = state.usage)
    (hstarts : CatalogStarts catalog.item created → StartsUngated state event) :
    Effect state event (base.launchCatalogRequest index catalog created) := by
  cases htemplate : catalog.item.underlyingTemplate with
  | none =>
    simp only [LaunchState.launchCatalogRequest, htemplate]
    exact .quiet hentries husage
  | some template =>
    cases created with
    | none =>
      simp only [LaunchState.launchCatalogRequest, htemplate]
      exact .quiet hentries husage
    | some created =>
      let newJob := createUnifiedJob created.kind
        (catalog.request.createUnifiedJob catalog.item template created.passwordsNeeded)
      simp only [LaunchState.launchCatalogRequest, htemplate]
      refine .ungated newJob (newJob.signalStart []).2 _ (fun hstarted => hstarts ?_)
        (congrArg (· ++ _) hentries) husage
      have hneeded := passwordsGiven_nil_iff.mp ((signalStart_accepted_iff rfl []).mp hstarted)
      refine ⟨htemplate ▸ Option.some_ne_none template, created, rfl, fun hkind => ?_⟩
      rw [← hneeded]
      exact (if_pos hkind).symm

theorem step_effect (hstep : step state event = some state') : Effect state event state' := by
  cases event with
  | launch view request =>
    obtain rfl := Option.some.inj hstep
    exact .launched view request
  | jobRelaunch id createdBy passwordsNeeded passwords =>
    simp only [step] at hstep
    split at hstep
    · next job hjob =>
      split at hstep
      · obtain rfl := Option.some.inj hstep
        rw [LaunchState.jobRelaunch]
        split
        · next haccepted =>
          refine .ungated _ _ _ (fun _ => ?_) rfl rfl
          exact (signalStart_accepted_iff rfl passwords).mp haccepted
        · exact .ungated _ false _ nofun rfl rfl
      · contradiction
    · contradiction
  | workflowJobRelaunch id createdBy =>
    simp only [step] at hstep
    split at hstep
    · split at hstep
      · obtain rfl := Option.some.inj hstep
        exact .ungated _ _ _ (fun _ => trivial) rfl rfl
      · contradiction
    · contradiction
  | submitRequest item requestedBy extraVars nodeSurveyData now created =>
    obtain rfl := Option.some.inj hstep
    rw [LaunchState.submitRequest]
    split
    · exact .quiet rfl rfl
    · next happroval =>
      exact effect_launchCatalogRequest _ rfl rfl fun hstarts => ⟨happroval, hstarts⟩
  | approveRequest index user now created =>
    simp only [step, LaunchState.approveRequest] at hstep
    split at hstep
    · next catalog hcatalog =>
      split at hstep
      · next hpermitted =>
        obtain rfl := Option.some.inj hstep
        exact effect_launchCatalogRequest index rfl rfl fun hstarts =>
          ⟨catalog, hcatalog, hpermitted.1, hpermitted.2, hstarts⟩
      · contradiction
    · contradiction
  | otherStart kind prompts =>
    obtain rfl := Option.some.inj hstep
    exact .ungated _ _ _ (fun _ => trivial) rfl rfl
  | saveJob id status =>
    simp only [step] at hstep
    split at hstep
    · next job hjob =>
      split at hstep
      · contradiction
      · obtain rfl := Option.some.inj hstep
        -- the receiver never hears of a job, so the usage stays
        exact .saved id status rfl (postSave_subclass (some state.organization) job.kind false status)
    · contradiction
  | deleteJob id =>
    simp only [step] at hstep
    split at hstep
    · split at hstep
      · contradiction
      · obtain rfl := Option.some.inj hstep
        exact .deleted id rfl rfl
    · contradiction
  | updateOrganization organization | updatePolicies policies opa =>
    obtain rfl := Option.some.inj hstep
    exact .quiet rfl rfl

end Forail.Launches
