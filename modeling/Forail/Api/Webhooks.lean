import Forail.Core.Texts
import Mathlib.Data.List.Nodup

/-!
# Webhook receivers

A template is launched by the events of a GitHub, GitLab or Bitbucket service.  A receiver
checks the signature of a request and whether the request is ignored, looks for a job of the
event, and creates one.  A request is a transaction, which sees what others have committed.
-/

namespace Forail.Webhooks

open Forail.Texts

/-! ## Requests -/

inductive Service where
  | github
  | gitlab
  | bitbucketDc
  deriving DecidableEq

abbrev Body := List UInt8

/-- A request to a receiver, and whether its body can be parsed and what the variables of the
job take from it can be read. -/
structure Request where
  receiver : Service
  headers : String → Option Text
  body : Body
  parsed : Bool
  described : Bool

/-- The template, whose service is not set without webhooks. -/
structure Template where
  webhookService : Option Service
  webhookKey : Text

inductive HashAlgorithm where
  | sha1
  | sha256
  deriving DecidableEq

def HashAlgorithm.name : HashAlgorithm → Text
  | .sha1 => "sha1".toList
  | .sha256 => "sha256".toList

/-- `hmac.new(key, body, algorithm).hexdigest()` and `sha1(body).hexdigest()` -/
structure Hashes where
  hmac : HashAlgorithm → Text → Body → Text
  sha1 : Body → Text

inductive Response where
  | badRequest
  | permissionDenied
  | ignored
  | previouslyReceived
  | queued
  | serverError
  deriving DecidableEq

/-! ## Receivers -/

section

variable (hashes : Hashes) (request : Request)

def getEventType : Option Text :=
  match request.receiver with
  | .github => request.headers "HTTP_X_GITHUB_EVENT"
  | .gitlab => request.headers "HTTP_X_GITLAB_EVENT"
  | .bitbucketDc => request.headers "HTTP_X_EVENT_KEY"

/-- GitLab has no identifier of its events, so that the body is taken for it. -/
def getEventGuid : Option Text :=
  match request.receiver with
  | .github => request.headers "HTTP_X_GITHUB_DELIVERY"
  | .gitlab => some (hashes.sha1 request.body)
  | .bitbucketDc => request.headers "HTTP_X_REQUEST_ID"

def mustCheckSignature : Bool :=
  match request.receiver with
  | .bitbucketDc => getEventType request ≠ some "diagnostics:ping".toList
  | _ => true

def isIgnoredRequest : Bool :=
  match request.receiver with
  | .bitbucketDc =>
      getEventType request ∉ [some "repo:refs_changed".toList,
        some "mirror:repo_synchronized".toList, some "pr:opened".toList,
        some "pr:from_ref_updated".toList, some "pr:modified".toList]
  | _ => false

/-- The algorithm and the digest of `HTTP_X_HUB_SIGNATURE`.  A header with another number of
`=` raises. -/
def getSignature : Except Response (Text × Text) :=
  match request.headers "HTTP_X_HUB_SIGNATURE" with
  | none | some [] => .error .permissionDenied
  | some header =>
      match split ['='] header with
      | [algorithm, signature] =>
          if request.receiver = .github ∧ algorithm ≠ "sha1".toList then
            .error .permissionDenied
          else .ok (algorithm, signature)
      | _ => .error .serverError

def hashAlgorithm (name : Text) : Option HashAlgorithm :=
  if name = "sha1".toList then some .sha1
  else if name = "sha256".toList then some .sha256
  else none

def checkDigest (webhookKey : Text) : Except Response Unit :=
  if mustCheckSignature request then
    match getSignature request with
    | .error response => .error response
    | .ok (name, expectedDigest) =>
        match hashAlgorithm name with
        | none => .error .permissionDenied
        | some algorithm =>
            if hashes.hmac algorithm webhookKey request.body = expectedDigest then .ok ()
            else .error .permissionDenied
  else .ok ()

def checkToken (webhookKey : Text) : Except Response Unit :=
  if webhookKey = (request.headers "HTTP_X_GITLAB_TOKEN").getD [] then .ok ()
  else .error .permissionDenied

def checkSignature (webhookKey : Text) : Except Response Unit :=
  if webhookKey = [] then .error .permissionDenied
  else
    match request.receiver with
    | .gitlab => checkToken request webhookKey
    | _ => checkDigest hashes request webhookKey

def checkRequest (template : Template) : Except Response (Option Text) :=
  if request.parsed then
    if template.webhookService = some request.receiver ∧ template.webhookKey ≠ [] then
      match checkSignature hashes request template.webhookKey with
      | .error response => .error response
      | .ok () =>
          if isIgnoredRequest request then .error .ignored
          else if request.described then .ok (getEventGuid hashes request)
          else .error .serverError
    else .error .permissionDenied
  else .error .badRequest

end

/-! ## Jobs -/

/-- A template launches workflow jobs, jobs, or workflow jobs of slices. -/
inductive JobKind where
  | job
  | workflowJob
  deriving DecidableEq

structure LaunchedJob where
  kind : JobKind
  webhookService : Service
  webhookGuid : Text
  request : Request

/-- Where a request is: it searches the workflow jobs or the jobs, creates a job, or is
answered. -/
inductive Phase where
  | searchingWorkflowJobs
  | searchingJobs
  | creating
  | answered (response : Response)
  deriving DecidableEq

/-- A request on its way, and whether a job of its event was committed after its search had
begun. -/
structure Delivery where
  request : Request
  webhookGuid : Option Text
  phase : Phase
  overtaken : Bool

structure State where
  jobs : List LaunchedJob
  deliveries : List Delivery

def State.start : State := ⟨[], []⟩

/-- `objects.filter(**kwargs).exists()`, where no job has no identifier. -/
def State.Exists (state : State) (kind : JobKind) (service : Service) (guid : Option Text) :
    Prop :=
  ∃ job ∈ state.jobs, job.kind = kind ∧ job.webhookService = service ∧
    some job.webhookGuid = guid

instance (state : State) (kind : JobKind) (service : Service) (guid : Option Text) :
    Decidable (state.Exists kind service guid) :=
  inferInstanceAs (Decidable (∃ _ ∈ state.jobs, _))

def State.setPhase (state : State) (id : ℕ) (phase : Phase) : State :=
  { state with
    deliveries := state.deliveries.modify id fun delivery => { delivery with phase := phase } }

/-- The search of a request has begun and its job is not committed. -/
def Delivery.Searching (delivery : Delivery) : Prop :=
  delivery.phase = .searchingJobs ∨ delivery.phase = .creating

instance : DecidablePred Delivery.Searching := fun _ => inferInstanceAs (Decidable (_ ∨ _))

def Delivery.overtake (service : Service) (guid : Text) (delivery : Delivery) : Delivery :=
  if delivery.request.receiver = service ∧ delivery.webhookGuid = some guid ∧
      delivery.Searching then
    { delivery with overtaken := true }
  else delivery

def State.commit (state : State) (id : ℕ) (job : LaunchedJob) : State where
  jobs := job :: state.jobs
  deliveries := ((state.setPhase id (.answered .queued)).deliveries).map
    (Delivery.overtake job.webhookService job.webhookGuid)

/-! ## Steps -/

/-- What can happen next: a request is received, makes its next search, commits a job, or fails
to create one. -/
inductive Event where
  | receives (request : Request)
  | searches (id : ℕ)
  | commits (id : ℕ) (kind : JobKind)
  | fails (id : ℕ)

def deliver (hashes : Hashes) (template : Template) (request : Request) : Delivery :=
  match checkRequest hashes request template with
  | .error response => ⟨request, none, .answered response, false⟩
  | .ok guid => ⟨request, guid, .searchingWorkflowJobs, false⟩

def storable (guid : Option Text) : Option Text := guid.filter fun guid => guid.length ≤ 128

def step (hashes : Hashes) (template : Template) (state : State) : Event → Option State
  | .receives request =>
      some { state with
        deliveries := state.deliveries ++ [deliver hashes template request] }
  | .searches id =>
      match state.deliveries[id]? with
      | none => none
      | some delivery =>
          match delivery.phase with
          | .searchingWorkflowJobs =>
              if state.Exists .workflowJob delivery.request.receiver delivery.webhookGuid then
                some (state.setPhase id (.answered .previouslyReceived))
              else some (state.setPhase id .searchingJobs)
          | .searchingJobs =>
              if state.Exists .job delivery.request.receiver delivery.webhookGuid then
                some (state.setPhase id (.answered .previouslyReceived))
              else some (state.setPhase id .creating)
          | _ => none
  | .commits id kind =>
      match state.deliveries[id]? with
      | none => none
      | some delivery =>
          if delivery.phase = .creating then
            match storable delivery.webhookGuid with
            | none => some (state.setPhase id (.answered .serverError))
            | some guid =>
                some (state.commit id ⟨kind, delivery.request.receiver, guid, delivery.request⟩)
          else none
  | .fails id =>
      match state.deliveries[id]? with
      | none => none
      | some delivery =>
          if delivery.phase = .creating then
            some (state.setPhase id (.answered .serverError))
          else none

end Forail.Webhooks
