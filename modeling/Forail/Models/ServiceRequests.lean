import Mathlib.Logic.Function.Basic
import Forail.Core.Runs
import Forail.Models.ServiceCatalog

/-!
# The lifecycle of a service request

Approvers load the request, look at the status of their copy, and store their
decision; the one who approves launches the job.  Every save of a job in a final
status mirrors that status onto its request, again from a copy loaded before.
-/

namespace Forail.ServiceRequests

open Forail.Runs Forail.ServiceCatalog Forail.UnifiedJobs

abbrev Client := ℕ

inductive Process where
  | idle
  | loaded (copy : ServiceRequest)
  /-- The approval is stored, and `_launch` begins. -/
  | approved (copy : ServiceRequest)
  /-- `_launch` has created the job. -/
  | created (job : JobId)
  /-- The job is linked to the request, and `signal_start` comes next. -/
  | linked (job : JobId)
  /-- The handler of a saved job has loaded the request. -/
  | syncing (copy : ServiceRequest)
  deriving DecidableEq, Repr

structure RequestState where
  item : ServiceCatalogItem
  row : ServiceRequest
  jobs : List Job
  processes : Client → Process

namespace RequestState

def setProcess (state : RequestState) (client : Client) (process : Process) : RequestState :=
  { state with processes := Function.update state.processes client process }

def newRequest (requestedBy : Option UserId) (extraVars nodeSurveyData : Vars) :
    ServiceRequest where
  requestedBy := requestedBy
  status := .pendingApproval
  extraVars := extraVars
  nodeSurveyData := nodeSurveyData
  approvedBy := none
  approvedAt := none
  rejectionReason := ""
  unifiedJob := none

/-- The request after the first save of `submit`; without an approval the view
goes on with `_launch`. -/
def submitted (item : ServiceCatalogItem) (requestedBy : Option UserId)
    (extraVars nodeSurveyData : Vars) (now : Time) : RequestState :=
  let request := newRequest requestedBy extraVars nodeSurveyData
  if item.requiresApproval then
    { item := item, row := request, jobs := [], processes := fun _ => .idle }
  else
    { item := item
      row := request.approved none now
      jobs := []
      processes := Function.update (fun _ => .idle) 0 (.approved (request.approved none now)) }

end RequestState

inductive Event where
  | get (client : Client)
  | approve (client : Client) (user : User) (now : Time)
  | reject (client : Client) (user : User) (now : Time) (reason : String)
  /-- `create_unified_job`, which answers with a job or with `None`. -/
  | createJob (client : Client) (created : Option (List String))
  | linkJob (client : Client)
  | startJob (client : Client) (raises : Bool)
  /-- A process saves the job with a status. -/
  | saveJob (client : Client) (job : JobId) (status : JobStatus)
  | syncStatus (client : Client)
  deriving DecidableEq

/-- A refused call raises a `ValidationError` and stores nothing. -/
def step (state : RequestState) : Event → Option RequestState
  | .get client =>
      match state.processes client with
      | .idle => some (state.setProcess client (.loaded state.row))
      | _ => none
  | .approve client user now =>
      match state.processes client with
      | .loaded copy =>
          if copy.status = .pendingApproval ∧ state.item.canUserApprove user then
            some { state.setProcess client (.approved (copy.approved (some user.id) now)) with
              row := state.row.approved (some user.id) now }
          else some (state.setProcess client .idle)
      | _ => none
  | .reject client user now reason =>
      match state.processes client with
      | .loaded copy =>
          if copy.status = .pendingApproval ∧ state.item.canUserApprove user then
            some { state.setProcess client .idle with
              row := state.row.rejected user.id now reason }
          else some (state.setProcess client .idle)
      | _ => none
  | .createJob client created =>
      match state.processes client with
      | .approved copy =>
          match state.item.underlyingTemplate, created with
          | some template, some passwordsNeeded =>
              some { state.setProcess client (.created state.jobs.length) with
                jobs := state.jobs ++ [copy.createUnifiedJob state.item template passwordsNeeded] }
          | _, _ =>
              some { state.setProcess client .idle with row := state.row.withStatus .failed }
      | _ => none
  | .linkJob client =>
      match state.processes client with
      | .created job =>
          some { state.setProcess client (.linked job) with row := state.row.linked job }
      | _ => none
  | .startJob client raises =>
      match state.processes client with
      | .linked job =>
          some { state.setProcess client .idle with
            jobs := if raises then state.jobs
              else state.jobs.modify job fun job => (job.signalStart []).1 }
      | _ => none
  | .saveJob client job status =>
      match state.processes client with
      | .idle =>
          let saved := { state with
            jobs := state.jobs.modify job fun job => { job with status := status } }
          if ¬ status.Active ∧ state.row.unifiedJob = some job ∧ ¬ state.row.status.Terminal then
            some (saved.setProcess client (.syncing state.row))
          else some (saved.setProcess client .idle)
      | _ => none
  | .syncStatus client =>
      match state.processes client with
      | .syncing copy =>
          if copy.status.Terminal then some (state.setProcess client .idle)
          else
            match (copy.unifiedJob.bind fun job => state.jobs[job]?).bind fun job =>
              ServiceRequest.jobStatus job.status with
            | some status =>
                some { state.setProcess client .idle with row := state.row.withStatus status }
            | none => some (state.setProcess client .idle)
      | _ => none

/-! ## Current copies -/

/-- Every decision, and every mirrored status, is stored on the strength of a
copy that is still current: the request has not been decided, or has not ended,
since it was loaded. -/
def DecidesCurrent (state : RequestState) : Event → Prop
  | .approve client _ _ | .reject client _ _ _ =>
      match state.processes client with
      | .loaded copy => copy.status = .pendingApproval → state.row.status = .pendingApproval
      | _ => True
  | .syncStatus client =>
      match state.processes client with
      | .syncing copy => state.row.status.Terminal → copy.status.Terminal
      | _ => True
  | _ => True

def Process.Launching : Process → Prop
  | approved _ => True
  | created _ => True
  | _ => False

def Process.Approved : Process → Prop
  | approved _ => True
  | _ => False

def Process.Syncing : Process → Prop
  | syncing _ => True
  | _ => False

/-- One call at most launches, and only while the request is approved. -/
structure Lifecycle (state : RequestState) : Prop where
  launching : ∀ client, (state.processes client).Launching → state.row.status = .approved
  alone : ∀ client other, (state.processes client).Launching →
    (state.processes other).Launching → client = other
  approved_jobs : ∀ client copy, state.processes client = .approved copy → state.jobs = []
  jobs_le : state.jobs.length ≤ 1
  unlaunched : state.row.status = .pendingApproval ∨ state.row.status = .rejected →
    state.jobs = []
  linked : state.row.unifiedJob ≠ none → state.row.status = .running ∨
    state.row.status = .successful ∨ state.row.status = .failed ∨ state.row.status = .canceled
  syncing : ∀ client copy, state.processes client = .syncing copy →
    state.row.unifiedJob ≠ none

variable {state state' later : RequestState} {event : Event} {client : Client}

namespace Lifecycle

theorem submitted (item : ServiceCatalogItem) (requestedBy : Option UserId)
    (extraVars nodeSurveyData : Vars) (now : Time) :
    Lifecycle (.submitted item requestedBy extraVars nodeSurveyData now) := by
  rw [RequestState.submitted]
  split
  · constructor <;>
      simp [Process.Launching, RequestState.newRequest]
  · have honly : ∀ process other, Function.update (fun _ => Process.idle) 0 process other =
        if other = 0 then process else .idle := fun _ _ => Function.update_apply ..
    constructor <;> simp only [honly]
    case launching => exact fun _ _ => rfl
    case alone =>
      intro client other hclient hother
      split at hclient
      · next hzero =>
        split at hother
        · next hzero' => exact hzero.trans hzero'.symm
        · exact hother.elim
      · exact hclient.elim
    case approved_jobs => exact fun _ _ _ => trivial
    case jobs_le => exact Nat.zero_le 1
    case unlaunched => exact fun _ => trivial
    case linked => exact fun hlinked => absurd rfl hlinked
    case syncing =>
      intro client copy hsyncing
      split at hsyncing <;> contradiction

variable (hlife : Lifecycle state)

include hlife

theorem move {process : Process} {row : ServiceRequest} {jobs : List Job}
    (hothers : ∀ other, other ≠ client → ¬ (state.processes other).Launching)
    (hlaunching : process.Launching → row.status = .approved)
    (happroved : process.Approved → jobs = [])
    (hjobs : jobs.length ≤ 1)
    (hunlaunched : row.status = .pendingApproval ∨ row.status = .rejected → jobs = [])
    (hlinked : row.unifiedJob ≠ none → row.status = .running ∨ row.status = .successful ∨
      row.status = .failed ∨ row.status = .canceled)
    (hkept : state.row.unifiedJob ≠ none → row.unifiedJob ≠ none)
    (hsyncing : ¬ process.Syncing) :
    Lifecycle { state.setProcess client process with row := row, jobs := jobs } := by
  have hprocess : ∀ other, (Function.update state.processes client process other).Launching →
      other = client ∧ process.Launching := by
    intro other hother
    by_cases hsame : other = client
    · rw [hsame, Function.update_self] at hother
      exact ⟨hsame, hother⟩
    · rw [Function.update_of_ne hsame] at hother
      exact absurd hother (hothers other hsame)
  constructor
  case launching => exact fun other hother => hlaunching (hprocess other hother).2
  case alone =>
    exact fun one other hone hother => (hprocess one hone).1.trans (hprocess other hother).1.symm
  case approved_jobs =>
    intro other copy hother
    simp only [RequestState.setProcess] at hother
    have hlaunch : (Function.update state.processes client process other).Launching := by
      rw [hother]
      trivial
    rw [(hprocess other hlaunch).1, Function.update_self] at hother
    exact happroved (by rw [hother]; trivial)
  case jobs_le => exact hjobs
  case unlaunched => exact hunlaunched
  case linked => exact hlinked
  case syncing =>
    intro other copy hother
    simp only [RequestState.setProcess] at hother
    by_cases hsame : other = client
    · rw [hsame, Function.update_self] at hother
      exact absurd (by rw [hother]; trivial) hsyncing
    · rw [Function.update_of_ne hsame] at hother
      exact hkept (hlife.syncing other copy hother)

theorem quiet {process : Process} {jobs : List Job} (hlaunching : ¬ process.Launching)
    (hsyncing : process.Syncing → state.row.unifiedJob ≠ none)
    (hjobs : jobs.length = state.jobs.length) :
    Lifecycle { state.setProcess client process with jobs := jobs } := by
  have hprocess : ∀ other, (Function.update state.processes client process other).Launching →
      Function.update state.processes client process other = state.processes other := by
    intro other hother
    by_cases hsame : other = client
    · rw [hsame, Function.update_self] at hother
      exact absurd hother hlaunching
    · rw [Function.update_of_ne hsame]
  have hempty : state.jobs = [] → jobs = [] := by
    intro hnone
    rw [← List.length_eq_zero_iff, hjobs, hnone, List.length_nil]
  constructor
  case launching =>
    exact fun other hother => hlife.launching other (hprocess other hother ▸ hother)
  case alone =>
    exact fun one other hone hother =>
      hlife.alone one other (hprocess one hone ▸ hone) (hprocess other hother ▸ hother)
  case approved_jobs =>
    intro other copy hother
    simp only [RequestState.setProcess] at hother
    have hlaunch : (Function.update state.processes client process other).Launching := by
      rw [hother]
      trivial
    rw [hprocess other hlaunch] at hother
    exact hempty (hlife.approved_jobs other copy hother)
  case jobs_le => exact hjobs ▸ hlife.jobs_le
  case unlaunched => exact fun hstatus => hempty (hlife.unlaunched hstatus)
  case linked => exact hlife.linked
  case syncing =>
    intro other copy hother
    simp only [RequestState.setProcess] at hother
    by_cases hsame : other = client
    · rw [hsame, Function.update_self] at hother
      exact hsyncing (by rw [hother]; trivial)
    · rw [Function.update_of_ne hsame] at hother
      exact hlife.syncing other copy hother

theorem not_launching (hstatus : state.row.status ≠ .approved) (other : Client) :
    ¬ (state.processes other).Launching := fun hlaunching =>
  hstatus (hlife.launching other hlaunching)

theorem not_launching_of_launching (hlaunching : (state.processes client).Launching)
    (other : Client) (hne : other ≠ client) : ¬ (state.processes other).Launching := fun hother =>
  hne (hlife.alone other client hother hlaunching)

theorem unlinked (hstatus : state.row.status = .pendingApproval ∨ state.row.status = .approved ∨
    state.row.status = .rejected) : state.row.unifiedJob = none := by
  by_contra hlinked
  rcases hlife.linked hlinked with hnow | hnow | hnow | hnow <;>
    simp [hnow] at hstatus

theorem approve {copy : ServiceRequest} (hpending : state.row.status = .pendingApproval)
    (user : User) (now : Time) :
    Lifecycle { state.setProcess client (.approved copy) with
      row := state.row.approved (some user.id) now } := by
  have hjobs : state.jobs = [] := hlife.unlaunched (.inl hpending)
  have hunlinked : state.row.unifiedJob = none := hlife.unlinked (.inl hpending)
  refine hlife.move (fun other _ => hlife.not_launching (by rw [hpending]; decide) other)
    (fun _ => rfl) (fun _ => hjobs) hlife.jobs_le (fun _ => hjobs) (fun hlinked => ?_) id id
  exact absurd hunlinked hlinked

theorem reject (hpending : state.row.status = .pendingApproval) (user : User) (now : Time)
    (reason : String) :
    Lifecycle { state.setProcess client .idle with
      row := state.row.rejected user.id now reason } := by
  have hjobs : state.jobs = [] := hlife.unlaunched (.inl hpending)
  have hunlinked : state.row.unifiedJob = none := hlife.unlinked (.inl hpending)
  refine hlife.move (fun other _ => hlife.not_launching (by rw [hpending]; decide) other)
    False.elim False.elim hlife.jobs_le (fun _ => hjobs) (fun hlinked => ?_) id id
  exact absurd hunlinked hlinked

theorem createJob {copy : ServiceRequest} (hprocess : state.processes client = .approved copy)
    (job : Job) :
    Lifecycle { state.setProcess client (.created state.jobs.length) with
      jobs := state.jobs ++ [job] } := by
  have hlaunching : (state.processes client).Launching := hprocess ▸ trivial
  have hstatus := hlife.launching client hlaunching
  have hjobs : state.jobs = [] := hlife.approved_jobs client copy hprocess
  refine hlife.move (hlife.not_launching_of_launching hlaunching) (fun _ => hstatus) False.elim ?_
    (fun hbefore => ?_) hlife.linked id id
  · rw [hjobs]
    exact Nat.le_refl 1
  · rcases hbefore with hbefore | hbefore <;>
      exact absurd (hstatus.symm.trans hbefore) (by decide)

theorem failLaunch {copy : ServiceRequest} (hprocess : state.processes client = .approved copy) :
    Lifecycle { state.setProcess client .idle with row := state.row.withStatus .failed } := by
  have hlaunching : (state.processes client).Launching := hprocess ▸ trivial
  refine hlife.move (hlife.not_launching_of_launching hlaunching) False.elim False.elim
    hlife.jobs_le (fun hbefore => ?_) (fun _ => .inr (.inr (.inl rfl))) id id
  rcases hbefore with hbefore | hbefore <;> contradiction

theorem linkJob {job : JobId} (hprocess : state.processes client = .created job) :
    Lifecycle { state.setProcess client (.linked job) with row := state.row.linked job } := by
  have hlaunching : (state.processes client).Launching := hprocess ▸ trivial
  refine hlife.move (hlife.not_launching_of_launching hlaunching) False.elim False.elim
    hlife.jobs_le (fun hbefore => ?_) (fun _ => .inl rfl) (fun _ => Option.some_ne_none job) id
  rcases hbefore with hbefore | hbefore <;> contradiction

theorem syncStatus {copy : ServiceRequest} {status : RequestStatus} {job : Job}
    (hprocess : state.processes client = .syncing copy)
    (hmapped : ServiceRequest.jobStatus job.status = some status) :
    Lifecycle { state.setProcess client .idle with row := state.row.withStatus status } := by
  have hlinked := hlife.syncing client copy hprocess
  have hstatus : state.row.status ≠ .approved := fun happroved =>
    hlinked (hlife.unlinked (.inr (.inl happroved)))
  have hended := ended_of_jobStatus hmapped
  refine hlife.move (fun other _ => hlife.not_launching hstatus other) False.elim False.elim
    hlife.jobs_le (fun hbefore => ?_) (fun _ => .inr hended) id id
  rcases hended with rfl | rfl | rfl <;> rcases hbefore with hbefore | hbefore <;> contradiction

end Lifecycle

theorem lifecycle_step (hlife : Lifecycle state) (hcurrent : DecidesCurrent state event)
    (hstep : step state event = some state') : Lifecycle state' := by
  cases event with
  | get client =>
    simp only [step] at hstep
    split at hstep
    · obtain rfl := Option.some.inj hstep
      exact hlife.quiet id False.elim rfl
    · contradiction
  | approve client user now =>
    simp only [step] at hstep
    split at hstep
    · next copy hprocess =>
      simp only [DecidesCurrent, hprocess] at hcurrent
      split at hstep <;> obtain rfl := Option.some.inj hstep
      · next hallowed => exact hlife.approve (hcurrent hallowed.1) user now
      · exact hlife.quiet id False.elim rfl
    · contradiction
  | reject client user now reason =>
    simp only [step] at hstep
    split at hstep
    · next copy hprocess =>
      simp only [DecidesCurrent, hprocess] at hcurrent
      split at hstep <;> obtain rfl := Option.some.inj hstep
      · next hallowed => exact hlife.reject (hcurrent hallowed.1) user now reason
      · exact hlife.quiet id False.elim rfl
    · contradiction
  | createJob client created =>
    simp only [step] at hstep
    split at hstep
    · next copy hprocess =>
      split at hstep <;> obtain rfl := Option.some.inj hstep
      · exact hlife.createJob hprocess _
      · exact hlife.failLaunch hprocess
    · contradiction
  | linkJob client =>
    simp only [step] at hstep
    split at hstep
    · next job hprocess =>
      obtain rfl := Option.some.inj hstep
      exact hlife.linkJob hprocess
    · contradiction
  | startJob client raises =>
    simp only [step] at hstep
    split at hstep
    · obtain rfl := Option.some.inj hstep
      refine hlife.quiet id False.elim ?_
      split
      · rfl
      · exact List.length_modify ..
    · contradiction
  | saveJob client job status =>
    simp only [step] at hstep
    split at hstep
    · next hprocess =>
      split at hstep <;> obtain rfl := Option.some.inj hstep
      · next hsync =>
        refine hlife.quiet id (fun _ => ?_) (List.length_modify ..)
        rw [hsync.2.1]
        exact Option.some_ne_none job
      · exact hlife.quiet id False.elim (List.length_modify ..)
    · contradiction
  | syncStatus client =>
    simp only [step] at hstep
    split at hstep
    · next copy hprocess =>
      split at hstep
      · obtain rfl := Option.some.inj hstep
        exact hlife.quiet id False.elim rfl
      · split at hstep <;> obtain rfl := Option.some.inj hstep
        · next status hmapped =>
          obtain ⟨job, -, hmapped⟩ := Option.bind_eq_some_iff.mp hmapped
          exact hlife.syncStatus hprocess hmapped
        · exact hlife.quiet id False.elim rfl
    · contradiction

/-- A terminal request is not stored again: the copies say that it is decided,
and no call launches. -/
theorem terminal_step (hlife : Lifecycle state) (hterminal : state.row.status.Terminal)
    (hcurrent : DecidesCurrent state event) (hstep : step state event = some state') :
    state'.row.status = state.row.status := by
  have hquiet : ∀ client, ¬ (state.processes client).Launching := by
    refine fun client => hlife.not_launching ?_ client
    intro happroved
    rw [happroved] at hterminal
    exact absurd hterminal (by decide)
  have hdecided : state.row.status ≠ .pendingApproval := by
    intro hpending
    rw [hpending] at hterminal
    exact absurd hterminal (by decide)
  cases event with
  | get client =>
    simp only [step] at hstep
    split at hstep
    · obtain rfl := Option.some.inj hstep
      rfl
    · contradiction
  | approve client user now | reject client user now reason =>
    simp only [step] at hstep
    split at hstep
    · next copy hprocess =>
      simp only [DecidesCurrent, hprocess] at hcurrent
      split at hstep
      · next hallowed => exact absurd (hcurrent hallowed.1) hdecided
      · obtain rfl := Option.some.inj hstep
        rfl
    · contradiction
  | createJob client created | linkJob client =>
    simp only [step] at hstep
    split at hstep
    · next hprocess => exact absurd (hprocess ▸ trivial) (hquiet client)
    · contradiction
  | startJob client raises =>
    simp only [step] at hstep
    split at hstep
    · obtain rfl := Option.some.inj hstep
      rfl
    · contradiction
  | saveJob client job status =>
    simp only [step] at hstep
    split at hstep
    · split at hstep <;> obtain rfl := Option.some.inj hstep <;> rfl
    · contradiction
  | syncStatus client =>
    simp only [step] at hstep
    split at hstep
    · next copy hprocess =>
      simp only [DecidesCurrent, hprocess] at hcurrent
      rw [if_pos (hcurrent hterminal)] at hstep
      obtain rfl := Option.some.inj hstep
      rfl
    · contradiction

/-- One job at most, none for a rejected request, and no way out of a terminal
status. -/
structure LifecycleKept (allowed : RequestState → Event → Prop) (state : RequestState) :
    Prop where
  one_job : state.jobs.length ≤ 1
  rejected : state.row.status = .rejected → state.jobs = [] ∧ state.row.unifiedJob = none
  terminal : ∀ later, Run step allowed state later → state.row.status.Terminal →
    later.row.status = state.row.status

/-- The lifecycle is kept in every run in which the copies are current. -/
theorem lifecycle_kept {item : ServiceCatalogItem} {requestedBy : Option UserId}
    {extraVars nodeSurveyData : Vars} {now : Time}
    (hrun : Run step DecidesCurrent (.submitted item requestedBy extraVars nodeSurveyData now)
      state) :
    LifecycleKept DecidesCurrent state := by
  have hlife : Lifecycle state :=
    hrun.invariant Lifecycle (.submitted ..) fun _ _ _ hlife hcurrent hstep =>
      lifecycle_step hlife hcurrent hstep
  refine ⟨hlife.jobs_le, fun hrejected => ?_, fun later hlater hterminal => ?_⟩
  · exact ⟨hlife.unlaunched (.inr hrejected), hlife.unlinked (.inr (.inr hrejected))⟩
  · refine (hlater.keeps (fun later => Lifecycle later ∧ later.row.status.Terminal)
      (fun later => later.row.status) (fun middle event next ⟨hmiddle, hended⟩ hcurrent hstep => ?_)
      ⟨hlife, hterminal⟩).2
    have hsame := terminal_step hmiddle hended hcurrent hstep
    exact ⟨⟨lifecycle_step hmiddle hcurrent hstep, hsame ▸ hended⟩, hsame⟩

/-! ## Two approvers -/

def approvableItem : ServiceCatalogItem where
  organization := some 1
  jobTemplate := some 5
  workflowJobTemplate := none
  requiresApproval := true
  approverTeam := none

def administrator : User where
  id := 2
  isAuthenticated := true
  isSuperuser := true
  teams := []
  adminOf := []

def submittedState : RequestState := .submitted approvableItem (some 9) [("size", "small")] [] 0

theorem lifecycle_kept_approved :
    ∃ state, Run step DecidesCurrent submittedState state ∧ state.jobs.length = 1 ∧
      state.row.status = .running ∧ LifecycleKept DecidesCurrent state := by
  let request := submittedState.row
  let loaded := submittedState.setProcess 0 (.loaded request)
  let approved : RequestState :=
    { loaded.setProcess 0 (.approved (request.approved (some 2) 3)) with
      row := request.approved (some 2) 3 }
  let created : RequestState :=
    { approved.setProcess 0 (.created 0) with
      jobs := [(request.approved (some 2) 3).createUnifiedJob approvableItem 5 []] }
  have hloaded : Run step DecidesCurrent submittedState loaded :=
    .next (.get 0) .start trivial rfl
  have happroved : Run step DecidesCurrent submittedState approved :=
    .next (.approve 0 administrator 3) hloaded (fun hpending => hpending) rfl
  have hcreated : Run step DecidesCurrent submittedState created :=
    .next (.createJob 0 (some [])) happroved trivial rfl
  have hlinked : Run step DecidesCurrent submittedState
      { created.setProcess 0 (.linked 0) with row := created.row.linked 0 } :=
    .next (.linkJob 0) hcreated trivial rfl
  exact ⟨_, hlinked, rfl, rfl, lifecycle_kept hlinked⟩

theorem approved_twice :
    ¬ ∀ (item : ServiceCatalogItem) (requestedBy : Option UserId)
      (extraVars nodeSurveyData : Vars) (now : Time) (state : RequestState),
      Run step (fun _ _ => True) (.submitted item requestedBy extraVars nodeSurveyData now)
        state → LifecycleKept (fun _ _ => True) state := by
  intro hclaim
  have hevents : (([.get 0, .get 1, .approve 0 administrator 3, .createJob 0 (some []),
      .linkJob 0, .startJob 0 false, .approve 1 administrator 4, .createJob 1 (some [])] :
        List Event).foldlM step submittedState).any (fun state =>
          decide (state.jobs.length = 2)) = true := by decide
  obtain ⟨state, hrun, htwo⟩ := exists_run_of_any _ hevents
  have hone := (hclaim _ _ _ _ _ state hrun).one_job
  rw [of_decide_eq_true htwo] at hone
  exact absurd hone (by decide)

end Forail.ServiceRequests
