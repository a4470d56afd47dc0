import Forail.Api.Launches
import Forail.Core.Runs

/-!
# Gated launches

Only the launch views ask the gates.  A job that they start was accepted by all
of them; a relaunch or a catalog request starts its job without asking any.
-/

namespace Forail.LaunchGates

open Forail.Launches Forail.PolicyEvaluator Forail.Runs Forail.TenantQuota Forail.UnifiedJobs

def Requested : Event → Prop
  | .otherStart _ _ => False
  | _ => True

def Accepted (gates : GateRecord) : Prop :=
  gates.quota = true ∧ gates.policy = true ∧ gates.scanner = true

def AllGated (state : LaunchState) : Prop :=
  ∀ entry ∈ state.entries, entry.gates.started = true → Accepted entry.gates

def Denied (state : LaunchState) (job : LaunchJob) : Prop :=
  state.policies.opaEnabled = true ∧ ∃ policy ∈ state.policies.applicable (resourceType job.kind),
    Denies state.policies (state.opa job) policy

variable {state state' : LaunchState} {event : Event} {view : LaunchView}
  {request : LaunchRequest}

theorem not_denied_of_allowed {job : LaunchJob}
    (hallowed : (state.evaluateLaunch job).allowed = true) : ¬ Denied state job := by
  rintro ⟨henabled, policy, happlies, hdenies⟩
  exact (evaluateLaunch_allowed_iff _).mp hallowed henabled policy happlies hdenies

theorem launch_gated (state : LaunchState) (view : LaunchView) (request : LaunchRequest) :
    ∃ entry, (state.launch view request).2.entries = state.entries ++ [entry] ∧
      (entry.gates.started = true → Accepted entry.gates ∧ ¬ Denied state entry.created) := by
  rw [LaunchState.launch_eq]
  simp only
  split
  · refine ⟨_, rfl, fun hstarted => ?_⟩
    exact absurd hstarted (ne_true_of_eq_false LaunchState.started_runGates)
  · next hresponse =>
    have haccepted : Accepted (state.runGates request (view.newJob request)).gates := by
      rw [LaunchState.gates_of_response_none hresponse]
      exact ⟨rfl, rfl, rfl⟩
    have hallowed := (LaunchState.response_runGates_eq_none_iff.mp hresponse).2.1
    split
    · exact ⟨_, rfl, fun _ => ⟨haccepted, not_denied_of_allowed hallowed⟩⟩
    · refine ⟨_, rfl, fun hstarted => ?_⟩
      exact absurd hstarted (ne_true_of_eq_false LaunchState.started_runGates)

theorem AllGated.changeRow (hgated : AllGated state) {id : ServiceCatalog.JobId}
    {change : Option LaunchJob → Option LaunchJob}
    (hentries : state'.entries = (state.changeRow id change).entries) : AllGated state' := by
  rw [AllGated, hentries]
  intro entry hentry hstarted
  have hgates : entry.gates ∈ (state.changeRow id change).entries.map Entry.gates :=
    List.mem_map_of_mem hentry
  rw [LaunchState.gates_changeRow] at hgates
  obtain ⟨before, hbefore, hsame⟩ := List.mem_map.mp hgates
  rw [← hsame] at hstarted ⊢
  exact hgated before hbefore hstarted

def StartsGated (state : LaunchState) (event : Event) : Prop :=
  ¬ StartsUngated state event

theorem allGated_step (hgated : AllGated state) (hstarts : StartsGated state event)
    (hstep : step state event = some state') : AllGated state' := by
  cases step_effect hstep with
  | launched view request =>
    obtain ⟨entry, hentries, hentry⟩ := launch_gated state view request
    exact forall_entries_concat hgated hentries fun hstarted => (hentry hstarted).1
  | ungated job started row hstarted hentries husage =>
    exact forall_entries_concat hgated hentries fun hnow => absurd (hstarted hnow) hstarts
  | saved id status hentries husage => exact hgated.changeRow hentries
  | deleted id hentries husage => exact hgated.changeRow hentries
  | quiet hentries husage =>
    rw [AllGated, hentries]
    exact hgated

theorem not_denied_step (hstarts : StartsGated state event)
    (hstep : step state event = some state') {entry : Entry}
    (hentry : state'.entries = state.entries ++ [entry]) (hstarted : entry.gates.started = true) :
    ¬ Denied state entry.created := by
  cases step_effect hstep with
  | launched view request =>
    obtain ⟨launched, hentries, hlaunched⟩ := launch_gated state view request
    have hsame : [launched] = [entry] := List.append_cancel_left (hentries.symm.trans hentry)
    obtain rfl := List.singleton_inj.mp hsame
    exact (hlaunched hstarted).2
  | ungated job started row hungated hentries husage =>
    have hsame := List.singleton_inj.mp (List.append_cancel_left (hentries.symm.trans hentry))
    subst hsame
    exact absurd (hungated hstarted) hstarts
  | saved id status hentries husage | deleted id hentries husage =>
    have hlength := congrArg List.length (hentries.symm.trans hentry)
    simp [LaunchState.changeRow] at hlength
  | quiet hentries husage =>
    have hlength := congrArg List.length (hentries.symm.trans hentry)
    simp at hlength

/-- A pending job was accepted by every gate, and no call starts a job that an
enforced policy denies. -/
structure GatesKept (allowed : LaunchState → Event → Prop) (state : LaunchState) : Prop where
  gated : AllGated state
  denied : ∀ event state' entry, allowed state event → step state event = some state' →
    state'.entries = state.entries ++ [entry] → entry.gates.started = true →
      ¬ Denied state entry.created

/-- The gates are kept in every run in which the launch views start the jobs. -/
theorem launches_gated {tenancyEnabled : Bool} {organization : Organization}
    {usage : Option TenantUsage} {policies : PolicySettings}
    {opa : LaunchJob → Policy → OpaAnswer}
    (hrun : Run step StartsGated (initial tenancyEnabled organization usage policies opa) state) :
    GatesKept StartsGated state := by
  have hgated : AllGated state :=
    hrun.invariant AllGated (fun _ hentry => absurd hentry List.not_mem_nil)
      fun _ _ _ hgated hstarts hstep => allGated_step hgated hstarts hstep
  exact ⟨hgated, fun _ _ _ hstarts hstep hentry hstarted =>
    not_denied_step hstarts hstep hentry hstarted⟩

/-! ## A catalog request for a denied template -/

def freezePolicies : PolicySettings where
  opaEnabled := true
  organization := some 1
  orgEnforcement := .enforce
  failMode := "deny"
  policies := [⟨"freeze", some 1, "forail.launch", .enforce, true, []⟩]

def untenanted : Organization where
  isTenantRoot := false
  tenantMaxConcurrentJobs := none
  tenantMaxDailyLaunches := none
  tenantMaxHosts := none
  tenantMaxStorageMb := none

def frozenState : LaunchState :=
  initial false untenanted none freezePolicies fun job _ =>
    if job.template = 5 then .decided [] ["change freeze"] else .decided [] []

def catalogItem : ServiceCatalog.ServiceCatalogItem where
  organization := some 1
  jobTemplate := some 5
  workflowJobTemplate := none
  requiresApproval := false
  approverTeam := none

def requestedLaunch (template : ServiceCatalog.TemplateId) : LaunchRequest where
  kind := .job
  prompts := ⟨template, .new, some 9, [], none, []⟩
  passwords := []
  now := 0
  scan := ⟨true, [], []⟩

theorem launches_gated_launch :
    ∃ state, Run step StartsGated frozenState state ∧
      (state.entries.map fun entry => entry.gates.started) = [false, true] ∧
      GatesKept StartsGated state := by
  let deniedState := (frozenState.launch .jobTemplate (requestedLaunch 5)).2
  have hdenied : Run step StartsGated frozenState deniedState :=
    .next (.launch .jobTemplate (requestedLaunch 5)) .start id rfl
  have hlaunched : Run step StartsGated frozenState
      (deniedState.launch .jobTemplate (requestedLaunch 6)).2 :=
    .next (.launch .jobTemplate (requestedLaunch 6)) hdenied id rfl
  exact ⟨_, hlaunched, by decide, launches_gated hlaunched⟩

theorem catalog_request_starts_denied :
    ¬ ∀ (tenancyEnabled : Bool) (organization : Organization) (usage : Option TenantUsage)
      (policies : PolicySettings) (opa : LaunchJob → Policy → OpaAnswer) (state : LaunchState),
      Run step (fun _ event => Requested event)
          (initial tenancyEnabled organization usage policies opa) state →
        GatesKept (fun _ event => Requested event) state := by
  intro hclaim
  let event : Event := .submitRequest catalogItem (some 9) [] [] 0 (some ⟨.job, []⟩)
  have hrequested : ∃ state, step frozenState event = some state ∧
      (∃ entry ∈ state.entries, entry.gates.started = true ∧ entry.gates.policy = false) :=
    ⟨_, rfl, _, List.mem_singleton.mpr rfl, rfl, rfl⟩
  obtain ⟨state, hstep, entry, hentry, hstarted, hpolicy⟩ := hrequested
  have hrun : Run step (fun _ event => Requested event) frozenState state :=
    .next event .start trivial hstep
  have haccepted := (hclaim _ _ _ _ _ state hrun).gated entry hentry hstarted
  exact absurd haccepted.2.1 (ne_true_of_eq_false hpolicy)

end Forail.LaunchGates
