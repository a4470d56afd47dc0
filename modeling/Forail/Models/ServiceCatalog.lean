import Forail.Models.UnifiedJobs

/-!
# The service catalog

A catalog item wraps a template, and a request for it launches the template at
once or after an approval.  A request then follows the status of its job.
-/

namespace Forail.ServiceCatalog

open Forail.UnifiedJobs

abbrev UserId := ℕ

abbrev TeamId := ℕ

abbrev OrganizationId := ℕ

abbrev TemplateId := ℕ

abbrev JobId := ℕ

abbrev Time := ℕ

abbrev Vars := List (String × String)

inductive RequestStatus where
  | pendingApproval
  | approved
  | rejected
  | running
  | successful
  | failed
  | canceled
  deriving DecidableEq, Repr

namespace RequestStatus

def name : RequestStatus → String
  | pendingApproval => "pending_approval"
  | approved => "approved"
  | rejected => "rejected"
  | running => "running"
  | successful => "successful"
  | failed => "failed"
  | canceled => "canceled"

def Terminal (status : RequestStatus) : Prop :=
  status ∈ [rejected, successful, failed, canceled]

instance : DecidablePred Terminal := fun status =>
  inferInstanceAs (Decidable (status ∈ [rejected, successful, failed, canceled]))

end RequestStatus

structure User where
  id : UserId
  isAuthenticated : Bool
  isSuperuser : Bool
  teams : List TeamId
  adminOf : List OrganizationId
  deriving DecidableEq, Repr

structure ServiceCatalogItem where
  organization : Option OrganizationId
  jobTemplate : Option TemplateId
  workflowJobTemplate : Option TemplateId
  requiresApproval : Bool
  approverTeam : Option TeamId
  deriving DecidableEq, Repr

namespace ServiceCatalogItem

variable (item : ServiceCatalogItem)

def underlyingTemplate : Option TemplateId :=
  item.jobTemplate.or item.workflowJobTemplate

def isWorkflow : Bool := item.workflowJobTemplate.isSome

def canUserApprove (user : User) : Bool :=
  user.isAuthenticated &&
    (user.isSuperuser ||
      match item.approverTeam with
      | some team => decide (team ∈ user.teams)
      | none => item.organization.any fun organization => decide (organization ∈ user.adminOf))

end ServiceCatalogItem

/-- The job of a request.  `passwordsNeeded` is `get_passwords_needed_to_start`. -/
structure Job where
  template : TemplateId
  status : JobStatus
  createdBy : Option UserId
  extraVars : Vars
  nodeSurveyData : Option Vars
  passwordsNeeded : List String
  deriving DecidableEq, Repr

def Job.signalStart (job : Job) (passwords : Vars) : Job × Bool :=
  if job.status ∉ [.new, .waiting] then (job, false)
  else if job.passwordsNeeded.all fun field =>
      passwords.any fun entry => decide (entry.1 = field ∧ entry.2 ≠ "") then
    ({ job with status := .pending }, true)
  else (job, false)

structure ServiceRequest where
  requestedBy : Option UserId
  status : RequestStatus
  extraVars : Vars
  nodeSurveyData : Vars
  approvedBy : Option UserId
  approvedAt : Option Time
  rejectionReason : String
  unifiedJob : Option JobId
  deriving DecidableEq, Repr

namespace ServiceRequest

variable (request : ServiceRequest)

def approved (user : Option UserId) (now : Time) : ServiceRequest :=
  { request with
    status := .approved
    approvedBy := user.or request.approvedBy
    approvedAt := some now }

def rejected (user : UserId) (now : Time) (reason : String) : ServiceRequest :=
  { request with
    status := .rejected
    approvedBy := some user
    approvedAt := some now
    rejectionReason := reason }

def withStatus (status : RequestStatus) : ServiceRequest :=
  { request with status := status }

def linked (job : JobId) : ServiceRequest :=
  { request with unifiedJob := some job, status := .running }

def createUnifiedJob (item : ServiceCatalogItem) (template : TemplateId)
    (passwordsNeeded : List String) : Job where
  template := template
  status := .new
  createdBy := request.requestedBy
  extraVars := request.extraVars
  nodeSurveyData :=
    if item.isWorkflow ∧ request.nodeSurveyData ≠ [] then some request.nodeSurveyData else none
  passwordsNeeded := passwordsNeeded

def jobStatus : JobStatus → Option RequestStatus
  | .successful => some .successful
  | .failed => some .failed
  | .error => some .failed
  | .canceled => some .canceled
  | _ => none

end ServiceRequest

variable {status : JobStatus} {mapped : RequestStatus}

theorem ended_of_jobStatus (hmapped : ServiceRequest.jobStatus status = some mapped) :
    mapped = .successful ∨ mapped = .failed ∨ mapped = .canceled := by
  cases status <;>
    simp only [ServiceRequest.jobStatus, Option.some.injEq, reduceCtorEq] at hmapped <;>
    simp [← hmapped]

theorem terminal_of_jobStatus (hmapped : ServiceRequest.jobStatus status = some mapped) :
    mapped.Terminal := by
  rcases ended_of_jobStatus hmapped with rfl | rfl | rfl <;> decide

end Forail.ServiceCatalog
