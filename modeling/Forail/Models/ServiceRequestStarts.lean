import Forail.Models.ServiceRequests

/-!
# Running requests and started jobs

A submission or an approval is one transaction: it launches the template, marks
the request as running and then asks the job to start.  The answer of
`signal_start` is not looked at, and its exceptions are only logged.  Approvers
may still hold a copy of the request that they loaded earlier.
-/

namespace Forail.ServiceRequestStarts

open Forail.Runs Forail.ServiceCatalog Forail.UnifiedJobs
open Forail.ServiceRequests (Client)

/-- How a call of `signal_start` ends: with its answer, or with an exception
before or after it saved the status of the job. -/
inductive StartOutcome where
  | answers
  | raisesBeforeSave
  | raisesAfterSave
  deriving DecidableEq, Repr

/-- What one launch meets: the passwords that the created job needs, if there is
a job, and the way its start ends. -/
structure LaunchOutcome where
  created : Option (List String)
  start : StartOutcome
  deriving DecidableEq, Repr

def StartOutcome.startJob (job : Job) : StartOutcome → Job
  | answers | raisesAfterSave => (job.signalStart []).1
  | raisesBeforeSave => job

inductive Process where
  | idle
  | loaded (copy : ServiceRequest)
  /-- The handler of a saved job has loaded the request. -/
  | syncing (copy : ServiceRequest)
  deriving DecidableEq, Repr

structure RequestState where
  item : ServiceCatalogItem
  row : Option ServiceRequest
  jobs : JobId → Option Job
  nextJob : JobId
  processes : Client → Process

def unlink (job : JobId) (request : ServiceRequest) : ServiceRequest :=
  if request.unifiedJob = some job then { request with unifiedJob := none } else request

namespace RequestState

def initial (item : ServiceCatalogItem) : RequestState where
  item := item
  row := none
  jobs := fun _ => none
  nextJob := 0
  processes := fun _ => .idle

def setProcess (state : RequestState) (client : Client) (process : Process) : RequestState :=
  { state with processes := Function.update state.processes client process }

def save (state : RequestState) (change : ServiceRequest → ServiceRequest) : RequestState :=
  { state with row := state.row.map change }

def launch (state : RequestState) (copy : ServiceRequest) (outcome : LaunchOutcome) :
    RequestState :=
  match state.item.underlyingTemplate, outcome.created with
  | some template, some passwordsNeeded =>
      let job := copy.createUnifiedJob state.item template passwordsNeeded
      { state.save fun request => request.linked state.nextJob with
        jobs := Function.update state.jobs state.nextJob (some (outcome.start.startJob job))
        nextJob := state.nextJob + 1 }
  | _, _ => state.save fun request => request.withStatus .failed

def serviceRequestSyncOnUjSave (state : RequestState) (job : JobId) (status : JobStatus) :
    Process :=
  match state.row with
  | some request =>
      if ¬ status.Active ∧ request.unifiedJob = some job ∧ ¬ request.status.Terminal then
        .syncing request
      else .idle
  | none => .idle

end RequestState

inductive Event where
  | submit (requestedBy : Option UserId) (extraVars nodeSurveyData : Vars) (now : Time)
      (outcome : LaunchOutcome)
  | get (client : Client)
  | approve (client : Client) (user : User) (now : Time) (outcome : LaunchOutcome)
  | reject (client : Client) (user : User) (now : Time) (reason : String)
  /-- A process saves the job with a status.  Jobs are created as `new`, and no
  process stores that status again. -/
  | saveJob (client : Client) (job : JobId) (status : JobStatus)
  | syncStatus (client : Client)
  /-- `destroy` of a job, which refuses active jobs that are not `new`. -/
  | deleteJob (job : JobId)
  | updateItem (item : ServiceCatalogItem)
  deriving DecidableEq

def step (state : RequestState) : Event → Option RequestState
  | .submit requestedBy extraVars nodeSurveyData now outcome =>
      match state.row with
      | some _ => none
      | none =>
          let request := ServiceRequests.RequestState.newRequest requestedBy extraVars
            nodeSurveyData
          if state.item.requiresApproval then some { state with row := some request }
          else
            let approved := request.approved none now
            some ({ state with row := some approved }.launch approved outcome)
  | .get client =>
      match state.processes client, state.row with
      | .idle, some request => some (state.setProcess client (.loaded request))
      | _, _ => none
  | .approve client user now outcome =>
      match state.processes client, state.row with
      | .loaded copy, some request =>
          if copy.status = .pendingApproval ∧ state.item.canUserApprove user then
            let saved := { state with row := some (request.approved (some user.id) now) }
            some ((saved.setProcess client .idle).launch (copy.approved (some user.id) now) outcome)
          else some (state.setProcess client .idle)
      | _, _ => none
  | .reject client user now reason =>
      match state.processes client with
      | .loaded copy =>
          if copy.status = .pendingApproval ∧ state.item.canUserApprove user then
            let saved := state.save fun request => request.rejected user.id now reason
            some (saved.setProcess client .idle)
          else some (state.setProcess client .idle)
      | _ => none
  | .saveJob client job status =>
      match state.processes client, state.jobs job with
      | .idle, some saved =>
          if status = .new then none
          else
            let process := state.serviceRequestSyncOnUjSave job status
            some { state.setProcess client process with
              jobs := Function.update state.jobs job (some { saved with status := status }) }
      | _, _ => none
  | .syncStatus client =>
      match state.processes client with
      | .syncing copy =>
          if copy.status.Terminal then some (state.setProcess client .idle)
          else
            match (copy.unifiedJob.bind state.jobs).bind fun job =>
              ServiceRequest.jobStatus job.status with
            | some status =>
                let saved := state.save fun request => request.withStatus status
                some (saved.setProcess client .idle)
            | none => some (state.setProcess client .idle)
      | _ => none
  | .deleteJob job =>
      match state.jobs job with
      | some saved =>
          if saved.status.Active ∧ saved.status ≠ .new then none
          else some { state.save (unlink job) with jobs := Function.update state.jobs job none }
      | none => none
  | .updateItem item => some { state with item := item }

/-! ## Started jobs -/

namespace RequestState

variable (state : RequestState)

def Started (request : ServiceRequest) : Prop :=
  ∃ id job, request.unifiedJob = some id ∧ state.jobs id = some job ∧ job.status ≠ .new

def RunningStarted : Prop :=
  ∀ request, state.row = some request → request.status = .running → state.Started request

/-- The launched request runs with a started job, or it has ended. -/
def Settled : Prop :=
  ∃ request, state.row = some request ∧
    (request.status = .running ∧ state.Started request ∨ request.status.Terminal)

end RequestState

theorem terminal_failed : RequestStatus.failed.Terminal := by decide

theorem not_terminal_running : ¬ RequestStatus.running.Terminal := by decide

/-- The start of the created job succeeds: the job needs no passwords, and
nothing is raised before its status is saved. -/
def LaunchOutcome.Accepted (item : ServiceCatalogItem) (outcome : LaunchOutcome) : Prop :=
  item.underlyingTemplate ≠ none → ∀ passwordsNeeded, outcome.created = some passwordsNeeded →
    passwordsNeeded = [] ∧ outcome.start ≠ .raisesBeforeSave

def launchOf (state : RequestState) : Event → Option LaunchOutcome
  | .submit _ _ _ _ outcome => if state.item.requiresApproval then none else some outcome
  | .approve client user _ outcome =>
      match state.processes client with
      | .loaded copy =>
          if copy.status = .pendingApproval ∧ state.item.canUserApprove user then some outcome
          else none
      | _ => none
  | _ => none

/-- Every launch gets its job started, and no job is deleted while its request
runs. -/
def StartsAccepted (state : RequestState) (event : Event) : Prop :=
  (∀ outcome, launchOf state event = some outcome → outcome.Accepted state.item) ∧
    ∀ job, event = .deleteJob job → ∀ request, state.row = some request →
      request.unifiedJob = some job → request.status ≠ .running

theorem signalStart_pending {job : Job} (hnew : job.status = .new)
    (hpasswords : job.passwordsNeeded = []) : (job.signalStart []).1.status = .pending := by
  rw [Job.signalStart, if_neg (by rw [hnew]; decide), hpasswords]
  rfl

theorem signalStart_refused {job : Job} (hpasswords : job.passwordsNeeded ≠ []) :
    (job.signalStart []).1 = job := by
  obtain ⟨field, fields, hfields⟩ := List.exists_cons_of_ne_nil hpasswords
  rw [Job.signalStart]
  split
  · rfl
  · rw [hfields]
    rfl

theorem startJob_new_iff (outcome : LaunchOutcome) {job : Job} (hnew : job.status = .new) :
    (outcome.start.startJob job).status ≠ .new ↔
      job.passwordsNeeded = [] ∧ outcome.start ≠ .raisesBeforeSave := by
  by_cases hpasswords : job.passwordsNeeded = []
  · have hpending : (job.signalStart []).1.status ≠ .new := by
      rw [signalStart_pending hnew hpasswords]
      decide
    cases houtcome : outcome.start <;> simp [StartOutcome.startJob, hpending, hpasswords, hnew]
  · have hrefused := signalStart_refused hpasswords
    cases houtcome : outcome.start <;>
      simp [StartOutcome.startJob, hrefused, hpasswords, hnew]

variable {state state' : RequestState} {event : Event} {request copy : ServiceRequest}
  {outcome : LaunchOutcome}

theorem launch_settled_iff (hrow : state.row = some request) :
    (state.launch copy outcome).Settled ↔ outcome.Accepted state.item := by
  cases htemplate : state.item.underlyingTemplate with
  | none =>
    have hlaunch : state.launch copy outcome = state.save fun request =>
        request.withStatus .failed := by
      simp only [RequestState.launch, htemplate]
    refine iff_of_true ⟨request.withStatus .failed, ?_, .inr terminal_failed⟩ ?_
    · rw [hlaunch, RequestState.save, hrow, Option.map_some]
    · exact fun hsome => absurd htemplate hsome
  | some template =>
    cases hcreated : outcome.created with
    | none =>
      have hlaunch : state.launch copy outcome = state.save fun request =>
          request.withStatus .failed := by
        simp only [RequestState.launch, htemplate, hcreated]
      refine iff_of_true ⟨request.withStatus .failed, ?_, .inr terminal_failed⟩ ?_
      · rw [hlaunch, RequestState.save, hrow, Option.map_some]
      · exact fun _ needed hsome => absurd (hcreated.symm.trans hsome) nofun
    | some needed =>
      let job := copy.createUnifiedJob state.item template needed
      have hstart := startJob_new_iff outcome (show job.status = .new from rfl)
      have hrow' : (state.launch copy outcome).row = some (request.linked state.nextJob) := by
        simp only [RequestState.launch, htemplate, hcreated, RequestState.save, hrow,
          Option.map_some]
      have hjob : (state.launch copy outcome).jobs state.nextJob =
          some (outcome.start.startJob job) := by
        simp only [RequestState.launch, htemplate, hcreated, Function.update_self, job]
      constructor
      · rintro ⟨launched, hlaunched, hsettled⟩ - needed' hneeded
        obtain rfl := Option.some.inj (hrow'.symm.trans hlaunched)
        obtain rfl := Option.some.inj (hcreated.symm.trans hneeded)
        rcases hsettled with ⟨-, id, started, hid, hstarted, hleft⟩ | hterminal
        · obtain rfl := Option.some.inj hid
          obtain rfl := Option.some.inj (hjob.symm.trans hstarted)
          exact hstart.mp hleft
        · exact absurd hterminal not_terminal_running
      · intro haccepted
        have hleft := hstart.mpr (haccepted (htemplate ▸ nofun) needed hcreated)
        exact ⟨_, hrow', .inl ⟨rfl, _, _, rfl, hjob, hleft⟩⟩

namespace RequestState

theorem Settled.runningStarted (hsettled : state.Settled) : state.RunningStarted := by
  obtain ⟨settled, hrow, hstarted | hterminal⟩ := hsettled
  · intro request hrequest _
    obtain rfl := Option.some.inj (hrow.symm.trans hrequest)
    exact hstarted.2
  · intro request hrequest hrunning
    obtain rfl := Option.some.inj (hrow.symm.trans hrequest)
    exact absurd (hrunning ▸ hterminal) not_terminal_running

theorem runningStarted_save (state : RequestState) {change : ServiceRequest → ServiceRequest}
    (hchange : ∀ request, (change request).status ≠ .running) :
    (state.save change).RunningStarted := by
  intro request hrequest hrunning
  obtain ⟨before, -, rfl⟩ := Option.map_eq_some_iff.mp hrequest
  exact absurd hrunning (hchange before)

end RequestState

theorem settled_of_launchOf (hallowed : StartsAccepted state event)
    (hlaunch : launchOf state event = some outcome) (hstep : step state event = some state') :
    state'.Settled := by
  have haccepted := hallowed.1 outcome hlaunch
  cases event with
  | submit requestedBy extraVars nodeSurveyData now answer =>
    simp only [launchOf] at hlaunch
    simp only [step] at hstep
    split at hlaunch
    · contradiction
    · next happroval =>
      obtain rfl := Option.some.inj hlaunch
      split at hstep
      · contradiction
      · rw [if_neg happroval] at hstep
        obtain rfl := Option.some.inj hstep
        exact (launch_settled_iff rfl).mpr haccepted
  | approve client user now answer =>
    simp only [launchOf] at hlaunch
    simp only [step] at hstep
    split at hlaunch
    · next copy hprocess =>
      rw [hprocess] at hstep
      split at hlaunch
      · next hpermitted =>
        obtain rfl := Option.some.inj hlaunch
        split at hstep
        · next loaded request hloaded hrow =>
          obtain rfl := Process.loaded.inj hloaded
          rw [if_pos hpermitted] at hstep
          obtain rfl := Option.some.inj hstep
          exact (launch_settled_iff rfl).mpr haccepted
        · contradiction
      · contradiction
    · contradiction
  | _ => contradiction

theorem RequestState.RunningStarted.update (hstarted : state.RunningStarted) {id : JobId}
    {job : Job} (hleft : job.status ≠ .new) :
    ({ state with jobs := Function.update state.jobs id (some job) } :
      RequestState).RunningStarted := by
  intro request hrequest hrunning
  obtain ⟨linked, started, hlinked, hjob, hnew⟩ := hstarted request hrequest hrunning
  by_cases hsame : linked = id
  · subst hsame
    exact ⟨linked, job, hlinked, Function.update_self .., hleft⟩
  · refine ⟨linked, started, hlinked, ?_, hnew⟩
    simp only [Function.update_of_ne hsame]
    exact hjob

theorem RequestState.RunningStarted.delete (hstarted : state.RunningStarted) {id : JobId}
    (hfree : ∀ request, state.row = some request → request.unifiedJob = some id →
      request.status ≠ .running) :
    ({ state.save (unlink id) with jobs := Function.update state.jobs id none } :
      RequestState).RunningStarted := by
  intro request hrequest hrunning
  obtain ⟨before, hbefore, rfl⟩ := Option.map_eq_some_iff.mp hrequest
  by_cases hlinked : before.unifiedJob = some id
  · rw [unlink, if_pos hlinked] at hrunning
    exact absurd hrunning (hfree before hbefore hlinked)
  · have hkept : unlink id before = before := by
      rw [unlink, if_neg hlinked]
    rw [hkept] at hrunning ⊢
    obtain ⟨linked, started, hid, hjob, hnew⟩ := hstarted before hbefore hrunning
    have hne : linked ≠ id := fun hsame => hlinked (hsame ▸ hid)
    refine ⟨linked, started, hid, ?_, hnew⟩
    simp only [Function.update_of_ne hne]
    exact hjob

theorem runningStarted_step (hstarted : state.RunningStarted)
    (hallowed : StartsAccepted state event) (hstep : step state event = some state') :
    state'.RunningStarted := by
  cases hlaunch : launchOf state event with
  | some outcome => exact (settled_of_launchOf hallowed hlaunch hstep).runningStarted
  | none =>
    cases event with
    | submit requestedBy extraVars nodeSurveyData now outcome =>
      simp only [launchOf] at hlaunch
      simp only [step] at hstep
      split at hlaunch
      · next happroval =>
        split at hstep
        · contradiction
        · rw [if_pos happroval] at hstep
          obtain rfl := Option.some.inj hstep
          intro request hrequest hrunning
          obtain rfl := Option.some.inj hrequest
          contradiction
      · contradiction
    | get client =>
      simp only [step] at hstep
      split at hstep
      · obtain rfl := Option.some.inj hstep
        exact hstarted
      · contradiction
    | approve client user now outcome =>
      simp only [launchOf] at hlaunch
      simp only [step] at hstep
      split at hstep
      · next copy request hprocess hrow =>
        simp only [hprocess] at hlaunch
        split at hlaunch
        · contradiction
        · next hrefused =>
          rw [if_neg hrefused] at hstep
          obtain rfl := Option.some.inj hstep
          exact hstarted
      · contradiction
    | reject client user now reason =>
      simp only [step] at hstep
      split at hstep
      · split at hstep <;> obtain rfl := Option.some.inj hstep
        · exact state.runningStarted_save fun _ => nofun
        · exact hstarted
      · contradiction
    | saveJob client job status =>
      simp only [step] at hstep
      split at hstep
      · split at hstep
        · contradiction
        · next hleft =>
          obtain rfl := Option.some.inj hstep
          exact hstarted.update hleft
      · contradiction
    | syncStatus client =>
      simp only [step] at hstep
      split at hstep
      · split at hstep
        · obtain rfl := Option.some.inj hstep
          exact hstarted
        · split at hstep <;> obtain rfl := Option.some.inj hstep
          · next status hmapped =>
            obtain ⟨job, -, hmapped⟩ := Option.bind_eq_some_iff.mp hmapped
            have hended := terminal_of_jobStatus hmapped
            refine state.runningStarted_save fun _ hrunning => ?_
            exact not_terminal_running (hrunning ▸ hended)
          · exact hstarted
      · contradiction
    | deleteJob job =>
      simp only [step] at hstep
      split at hstep
      · split at hstep
        · contradiction
        · obtain rfl := Option.some.inj hstep
          exact hstarted.delete (hallowed.2 job rfl)
      · contradiction
    | updateItem item =>
      obtain rfl := Option.some.inj hstep
      exact hstarted

/-- A running request has a started job, and a launch leaves its request running
with a started job or ended. -/
structure StartsKept (allowed : RequestState → Event → Prop) (state : RequestState) : Prop where
  running : state.RunningStarted
  settled : ∀ event outcome state', allowed state event → launchOf state event = some outcome →
    step state event = some state' → state'.Settled

/-- The job of a running request was started, in every run in which the starts
are accepted. -/
theorem running_has_started_job {item : ServiceCatalogItem}
    (hrun : Run step StartsAccepted (.initial item) state) : StartsKept StartsAccepted state := by
  have hstarted : state.RunningStarted :=
    hrun.invariant RequestState.RunningStarted
      (fun request hrequest => absurd hrequest (Option.some_ne_none request).symm)
      fun _ _ _ hstarted hallowed hstep => runningStarted_step hstarted hallowed hstep
  exact ⟨hstarted, fun _ _ _ hallowed hlaunch hstep => settled_of_launchOf hallowed hlaunch hstep⟩

/-! ## A job that asks for a password -/

open Forail.ServiceRequests (approvableItem administrator)

def passwordless : LaunchOutcome where
  created := some []
  start := .answers

def askingPassword : LaunchOutcome where
  created := some ["ssh_password"]
  start := .answers

theorem running_has_started_job_approved :
    ∃ state, Run step StartsAccepted (.initial approvableItem) state ∧
      state.row.map ServiceRequest.status = some .running ∧ StartsKept StartsAccepted state := by
  have haccepted : passwordless.Accepted approvableItem := by
    rintro - needed hneeded
    exact ⟨(Option.some.inj hneeded).symm, nofun⟩
  let start := RequestState.initial approvableItem
  let request := ServiceRequests.RequestState.newRequest (some 9) [("size", "small")] []
  let submitted := { start with row := some request }
  let loaded := submitted.setProcess 0 (.loaded request)
  have hsubmitted : Run step StartsAccepted start submitted :=
    .next (.submit (some 9) [("size", "small")] [] 0 passwordless) .start ⟨nofun, nofun⟩ rfl
  have hloaded : Run step StartsAccepted start loaded :=
    .next (.get 0) hsubmitted ⟨nofun, nofun⟩ rfl
  have hallowed : StartsAccepted loaded (.approve 0 administrator 3 passwordless) :=
    ⟨fun outcome houtcome => Option.some.inj houtcome ▸ haccepted, nofun⟩
  have happroved := Run.next (.approve 0 administrator 3 passwordless) hloaded hallowed rfl
  exact ⟨_, happroved, rfl, running_has_started_job happroved⟩

theorem running_with_new_job :
    ¬ ∀ (item : ServiceCatalogItem) (state : RequestState),
      Run step (fun _ _ => True) (.initial item) state →
        StartsKept (fun _ _ => True) state := by
  intro hclaim
  have hevents : (([.submit (some 9) [] [] 0 askingPassword] : List Event).foldlM step
      (.initial { approvableItem with requiresApproval := false })).any (fun state =>
        decide (state.row.map ServiceRequest.status = some .running ∧
          state.row.bind ServiceRequest.unifiedJob = some 0 ∧
          (state.jobs 0).map Job.status = some .new)) = true := by decide
  obtain ⟨state, hrun, htest⟩ := exists_run_of_any _ hevents
  obtain ⟨hrunning, hlinked, hnew⟩ := of_decide_eq_true htest
  obtain ⟨request, hrow, hstatus⟩ := Option.map_eq_some_iff.mp hrunning
  obtain ⟨id, job, hid, hjob, hleft⟩ := (hclaim _ state hrun).running request hrow hstatus
  rw [hrow, Option.bind_some, hid] at hlinked
  obtain rfl := Option.some.inj hlinked
  rw [hjob, Option.map_some] at hnew
  exact hleft (Option.some.inj hnew)

end Forail.ServiceRequestStarts
