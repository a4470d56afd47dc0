import Forail.Core.Verdicts

/-!
# The policy gate of a launch

Every enabled policy that applies to a launch is put to the policy server.  What
a denial does depends on the enforcement of the organization and of the policy,
and a server that cannot be reached denies or warns by the fail mode.
-/

namespace Forail.PolicyEvaluator

open Forail.Verdicts

abbrev OrganizationId := ℕ

inductive Enforcement where
  | none
  | warn
  | enforce
  deriving DecidableEq, Repr

inductive Decision where
  | allow
  | warn
  | deny
  deriving DecidableEq, Repr

def effectiveEnforcement (globalEnabled : Bool) (orgEnforcement policyEnforcement : Enforcement) :
    Enforcement :=
  if ¬ globalEnabled then .none
  else if orgEnforcement = .none then .none
  else if orgEnforcement = .warn then .warn
  else policyEnforcement

def failModeDecision (opaUnavailable : Bool) (failMode : String) : Decision :=
  if ¬ opaUnavailable then .allow else if failMode = "allow" then .allow else .deny

structure Policy where
  name : String
  organization : Option OrganizationId
  packagePath : String
  enforcement : Enforcement
  enabled : Bool
  appliesTo : List String
  deriving DecidableEq, Repr

def Policy.appliesToResource (policy : Policy) (resourceType : String) : Bool :=
  if policy.appliesTo = [] then true else resourceType ∈ policy.appliesTo

/-- What the server says of one policy: it cannot be reached, or its result
gives warnings and denials. -/
inductive OpaAnswer where
  | unavailable (error : String)
  | decided (warns denies : List String)
  deriving DecidableEq, Repr

/-- The audit row of one hit; a launch that is denied is not linked to it. -/
structure PolicyDecision where
  policyName : String
  decision : Decision
  linked : Bool
  message : String
  deriving DecidableEq, Repr

structure PolicyDecisionResult where
  allowed : Bool
  warnMessages : List String
  denyMessages : List String
  decisions : List PolicyDecision
  deriving DecidableEq, Repr

namespace PolicyDecisionResult

def empty : PolicyDecisionResult where
  allowed := true
  warnMessages := []
  denyMessages := []
  decisions := []

variable (result : PolicyDecisionResult) (policy : Policy)

/-- The fail mode decides when the server cannot be reached. -/
def unavailable (failMode : String) (error : String) : PolicyDecisionResult :=
  let message := "OPA unavailable: " ++ error
  if failModeDecision true failMode = .deny then
    { result with
      allowed := false
      denyMessages := result.denyMessages ++ [message]
      decisions := result.decisions ++ [⟨policy.name, .deny, false, message⟩] }
  else
    { result with
      warnMessages := result.warnMessages ++ [message]
      decisions := result.decisions ++ [⟨policy.name, .warn, true, message⟩] }

def warned (warning : String) : PolicyDecisionResult :=
  { result with
    warnMessages := result.warnMessages ++ ["[" ++ policy.name ++ "] " ++ warning]
    decisions := result.decisions ++ [⟨policy.name, .warn, true, warning⟩] }

def denied (effective : Enforcement) (denial : String) : PolicyDecisionResult :=
  let decision : PolicyDecision := ⟨policy.name, .deny, effective = .warn, denial⟩
  if effective = .enforce then
    { result with
      allowed := false
      denyMessages := result.denyMessages ++ ["[" ++ policy.name ++ "] " ++ denial]
      decisions := result.decisions ++ [decision] }
  else
    { result with
      warnMessages :=
        result.warnMessages ++ ["[" ++ policy.name ++ "] (deny in warn-only) " ++ denial]
      decisions := result.decisions ++ [decision] }

end PolicyDecisionResult

/-- The settings that the gate reads, and the policies of the database.
`orgEnforcement` is `ENFORCEMENT_NONE` for a launch without an organization. -/
structure PolicySettings where
  opaEnabled : Bool
  organization : Option OrganizationId
  orgEnforcement : Enforcement
  failMode : String
  policies : List Policy
  deriving DecidableEq, Repr

namespace PolicySettings

variable (settings : PolicySettings)

def applicable (resourceType : String) : List Policy :=
  settings.policies.filter fun policy =>
    policy.enabled &&
      (decide (policy.organization = none) || decide (policy.organization = settings.organization)) &&
      policy.appliesToResource resourceType

def effective (policy : Policy) : Enforcement :=
  effectiveEnforcement true settings.orgEnforcement policy.enforcement

end PolicySettings

def evaluatePolicy (settings : PolicySettings) (opa : Policy → OpaAnswer)
    (result : PolicyDecisionResult) (policy : Policy) : PolicyDecisionResult :=
  let effective := settings.effective policy
  if effective = .none then result
  else
    match opa policy with
    | .unavailable error => result.unavailable policy settings.failMode error
    | .decided warns denies =>
        denies.foldl (fun result denial => result.denied policy effective denial)
          (warns.foldl (fun result warning => result.warned policy warning) result)

def evaluateLaunch (settings : PolicySettings) (resourceType : String)
    (opa : Policy → OpaAnswer) : PolicyDecisionResult :=
  if ¬ settings.opaEnabled then .empty
  else if settings.orgEnforcement = .none then .empty
  else (settings.applicable resourceType).foldl (evaluatePolicy settings opa) .empty

/-! ## Denied launches -/

def Denies (settings : PolicySettings) (opa : Policy → OpaAnswer) (policy : Policy) : Prop :=
  settings.effective policy ≠ .none ∧
    match opa policy with
    | .unavailable _ => failModeDecision true settings.failMode = .deny
    | .decided _ denies => settings.effective policy = .enforce ∧ denies ≠ []

variable {settings : PolicySettings} {opa : Policy → OpaAnswer}

theorem allowed_foldl_warned (policy : Policy) (warns : List String)
    (result : PolicyDecisionResult) :
    (warns.foldl (fun result warning => result.warned policy warning) result).allowed =
      result.allowed := by
  induction warns generalizing result with
  | nil => rfl
  | cons warning warns ih =>
    rw [List.foldl_cons, ih]
    rfl

theorem allowed_foldl_denied_enforce (policy : Policy) (denies : List String)
    (result : PolicyDecisionResult) :
    (denies.foldl (fun result denial => result.denied policy .enforce denial) result).allowed =
      (result.allowed && denies.isEmpty) := by
  induction denies generalizing result with
  | nil => exact (Bool.and_true _).symm
  | cons denial denies ih =>
    rw [List.foldl_cons, ih]
    simp [PolicyDecisionResult.denied]

theorem allowed_foldl_denied_of_ne {effective : Enforcement} (heffective : effective ≠ .enforce)
    (policy : Policy) (denies : List String) (result : PolicyDecisionResult) :
    (denies.foldl (fun result denial => result.denied policy effective denial) result).allowed =
      result.allowed := by
  induction denies generalizing result with
  | nil => rfl
  | cons denial denies ih =>
    rw [List.foldl_cons, ih, PolicyDecisionResult.denied, if_neg heffective]

theorem allowed_evaluatePolicy (result : PolicyDecisionResult) (policy : Policy) :
    (evaluatePolicy settings opa result policy).allowed = true ↔
      result.allowed = true ∧ ¬ Denies settings opa policy := by
  by_cases hnone : settings.effective policy = .none
  · simp [evaluatePolicy, Denies, hnone]
  · cases hopa : opa policy with
    | unavailable error =>
      by_cases hfail : failModeDecision true settings.failMode = .deny <;>
        simp [evaluatePolicy, Denies, hnone, hopa, PolicyDecisionResult.unavailable, hfail]
    | decided warns denies =>
      by_cases henforce : settings.effective policy = .enforce
      · simp [evaluatePolicy, Denies, hopa, henforce, allowed_foldl_denied_enforce,
          allowed_foldl_warned]
      · simp [evaluatePolicy, Denies, hnone, hopa, henforce, allowed_foldl_warned,
          allowed_foldl_denied_of_ne henforce]

theorem blocksBy_evaluatePolicy : BlocksBy (evaluatePolicy settings opa)
    PolicyDecisionResult.allowed (Denies settings opa) :=
  allowed_evaluatePolicy

/-- The gate allows a launch exactly when no applicable policy denies it with an
enforced denial. -/
theorem evaluateLaunch_allowed_iff (resourceType : String) :
    (evaluateLaunch settings resourceType opa).allowed = true ↔
      (settings.opaEnabled = true →
        ∀ policy ∈ settings.applicable resourceType, ¬ Denies settings opa policy) := by
  rw [evaluateLaunch]
  split
  · next hdisabled => exact iff_of_true rfl fun henabled => absurd henabled hdisabled
  · next henabled =>
    split
    · next hnone =>
      refine iff_of_true rfl fun _ policy _ hdenies => hdenies.1 ?_
      simp [PolicySettings.effective, effectiveEnforcement, hnone]
    · rw [foldl_allowed_iff blocksBy_evaluatePolicy]
      simp only [PolicyDecisionResult.empty, true_and, not_not.mp henabled, forall_const]

end Forail.PolicyEvaluator
