import Forail.Policy.OpaClient

/-!
# The verdict of the policy gate

A launch is meant to be blocked by an enforced policy only: one that denies it, or
whose server is unavailable while the fail mode is to deny.  The gate does not look at
the enforcement when the server is unavailable, so a policy that only warns blocks as
well.
-/

namespace Forail.PolicyVerdict

open Forail.Json Forail.OpaClient Forail.PolicyEvaluator

structure PolicyServer where
  texts : Texts
  url : String
  reply : Policy → Reply

namespace PolicyServer

variable (server : PolicyServer) (policy : Policy)

def answers : Policy → OpaAnswer := answer server.texts server.url server.reply

def Unavailable : Prop :=
  ∃ error, evaluate server.url policy.packagePath (server.reply policy) = .error error

def Denied : Prop :=
  ∃ result, evaluate server.url policy.packagePath (server.reply policy) = .ok result ∧
    Denying result

end PolicyServer

variable {settings : PolicySettings} {resourceType : String} {server : PolicyServer}
  {policy : Policy}

def effectiveOf (settings : PolicySettings) (policy : Policy) : Enforcement :=
  effectiveEnforcement settings.opaEnabled settings.orgEnforcement policy.enforcement

def FailsClosed (settings : PolicySettings) : Prop :=
  failModeDecision true settings.failMode = .deny

def ShouldBlock (settings : PolicySettings) (server : PolicyServer) (policy : Policy) : Prop :=
  effectiveOf settings policy = .enforce ∧
    (server.Denied policy ∨ server.Unavailable policy ∧ FailsClosed settings)

structure VerdictHolds (settings : PolicySettings) (resourceType : String)
    (server : PolicyServer) : Prop where
  blocked_iff : (evaluateLaunch settings resourceType server.answers).allowed = false ↔
    ∃ policy ∈ settings.applicable resourceType, ShouldBlock settings server policy
  others_allow : ∀ policy ∈ settings.policies, effectiveOf settings policy ≠ .enforce →
    (evaluateLaunch { settings with policies := [policy] } resourceType
      server.answers).allowed = true
  any_order : ∀ policies, policies.Perm settings.policies →
    (evaluateLaunch { settings with policies := policies } resourceType server.answers).allowed =
      (evaluateLaunch settings resourceType server.answers).allowed

/-- The policy only warns, its server is unavailable, and the gate fails closed. -/
def WarnsClosed (settings : PolicySettings) (server : PolicyServer) (policy : Policy) : Prop :=
  effectiveOf settings policy = .warn ∧ server.Unavailable policy ∧ FailsClosed settings

theorem denies_iff (henabled : settings.opaEnabled = true) :
    Denies settings server.answers policy ↔
      ShouldBlock settings server policy ∨ WarnsClosed settings server policy := by
  have heffective : settings.effective policy = effectiveOf settings policy := by
    rw [PolicySettings.effective, effectiveOf, henabled]
  rw [Denies, heffective, ShouldBlock, WarnsClosed, PolicyServer.answers, answer]
  cases hserver : evaluate server.url policy.packagePath (server.reply policy) with
  | error error =>
    have hunavailable : server.Unavailable policy := ⟨error, hserver⟩
    have hdenied : ¬ server.Denied policy := by
      rintro ⟨result, hresult, -⟩
      rw [hserver] at hresult
      cases hresult
    simp only [hunavailable, hdenied, false_or, true_and, FailsClosed]
    cases effectiveOf settings policy <;> simp
  | ok result =>
    have hunavailable : ¬ server.Unavailable policy := by
      rintro ⟨error, herror⟩
      rw [hserver] at herror
      cases herror
    have hdenied : server.Denied policy ↔ Denying result := by
      constructor
      · rintro ⟨other, hother, hdenying⟩
        rw [hserver] at hother
        obtain rfl := Except.ok.inj hother
        exact hdenying
      · exact fun hdenying => ⟨result, hserver, hdenying⟩
    simp only [hunavailable, hdenied, false_and, and_false, or_false,
      denies_parseDecision_ne_nil_iff]
    exact and_iff_right_of_imp fun hblocks => by simp [hblocks.1]

theorem effectiveOf_eq_none (hdisabled : settings.opaEnabled ≠ true) :
    effectiveOf settings policy = .none := if_pos hdisabled

theorem evaluateLaunch_blocked_iff :
    (evaluateLaunch settings resourceType server.answers).allowed = false ↔
      ∃ policy ∈ settings.applicable resourceType,
        ShouldBlock settings server policy ∨ WarnsClosed settings server policy := by
  rw [← Bool.not_eq_true, evaluateLaunch_allowed_iff]
  by_cases henabled : settings.opaEnabled = true
  · simp only [henabled, denies_iff, forall_const, not_forall, not_not, exists_prop]
  · refine iff_of_false (not_not_intro fun hcontra => absurd hcontra henabled) ?_
    rintro ⟨policy, -, hblock | hwarns⟩
    · exact absurd (hblock.1.symm.trans (effectiveOf_eq_none henabled)) (by decide)
    · exact absurd (hwarns.1.symm.trans (effectiveOf_eq_none henabled)) (by decide)

theorem mem_applicable_iff {policies : List Policy} :
    policy ∈ ({ settings with policies := policies } : PolicySettings).applicable resourceType ↔
      policy ∈ policies ∧ policy ∈ ({ settings with policies := [policy] } :
        PolicySettings).applicable resourceType := by
  simp only [PolicySettings.applicable, List.mem_filter, List.mem_singleton, true_and]

/-- The verdict is the right one exactly when no applicable policy that only warns
finds its server unavailable while the gate fails closed. -/
theorem policyVerdict_iff :
    VerdictHolds settings resourceType server ↔
      (FailsClosed settings → ∀ policy ∈ settings.applicable resourceType,
        effectiveOf settings policy = .warn → ¬ server.Unavailable policy) := by
  constructor
  · intro hholds hclosed policy hpolicy hwarn hunavailable
    obtain ⟨hmem, halone⟩ := mem_applicable_iff.mp hpolicy
    have hallowed := hholds.others_allow policy hmem (by rw [hwarn]; decide)
    have hblocked : (evaluateLaunch { settings with policies := [policy] } resourceType
        server.answers).allowed = false :=
      evaluateLaunch_blocked_iff.mpr ⟨policy, halone, .inr ⟨hwarn, hunavailable, hclosed⟩⟩
    rw [hblocked] at hallowed
    cases hallowed
  · intro hanswered
    have hnone : ∀ policy ∈ settings.applicable resourceType,
        ¬ WarnsClosed settings server policy := fun policy hpolicy hwarns =>
      hanswered hwarns.2.2 policy hpolicy hwarns.1 hwarns.2.1
    refine ⟨?_, fun policy hmem hother => ?_, fun policies hperm => ?_⟩
    · rw [evaluateLaunch_blocked_iff]
      exact exists_congr fun policy => and_congr_right fun hpolicy =>
        or_iff_left (hnone policy hpolicy)
    · apply eq_true_of_ne_false
      intro hblocked
      obtain ⟨found, hfound, hblocks⟩ := evaluateLaunch_blocked_iff.mp hblocked
      obtain ⟨hfound', halone⟩ := mem_applicable_iff.mp hfound
      obtain rfl := List.mem_singleton.mp hfound'
      cases hblocks with
      | inl hblock => exact hother hblock.1
      | inr hwarns => exact hnone found (mem_applicable_iff.mpr ⟨hmem, halone⟩) hwarns
    · rw [Bool.eq_iff_iff, evaluateLaunch_allowed_iff, evaluateLaunch_allowed_iff]
      simp only [PolicySettings.applicable, List.mem_filter, hperm.mem_iff]
      exact Iff.rfl

/-! ## A policy that warns -/

def nightPolicy : Policy where
  name := "nights"
  organization := none
  packagePath := "forail.launch"
  enforcement := .enforce
  enabled := true
  appliesTo := []

def warningSettings : PolicySettings where
  opaEnabled := true
  organization := some 1
  orgEnforcement := .warn
  failMode := "deny"
  policies := [nightPolicy]

def stoppedServer : PolicyServer where
  texts := ⟨fun _ => "", fun _ => ""⟩
  url := "http://forail-opa:8181"
  reply := fun _ => .failed "Connection refused"

theorem warning_blocks :
    ¬ ∀ (settings : PolicySettings) (resourceType : String) (server : PolicyServer),
      VerdictHolds settings resourceType server := by
  intro hclaim
  have hallowed := (hclaim warningSettings "job_template" stoppedServer).others_allow nightPolicy
    (List.mem_singleton_self _) (by decide)
  exact absurd hallowed (by decide)

end Forail.PolicyVerdict
