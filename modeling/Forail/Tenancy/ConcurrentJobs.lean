import Forail.Api.Launches
import Forail.Core.Runs

/-!
# The concurrency counter of a tenant

The quota gate is the first of three gates and counts a launch that the others,
or the start of the job, may still end.  Nothing takes a launch off the counter
again, so it is exact as long as every counted job is still there and active.
-/

namespace Forail.ConcurrentJobs

open Forail.Launches Forail.Runs Forail.TenantQuota Forail.UnifiedJobs

def live (entry : Entry) : Bool :=
  entry.job.any fun job => job.status.Active

def countedLaunches (state : LaunchState) : ℕ :=
  state.entries.countP fun entry => entry.gates.counted

def openLaunches (state : LaunchState) : ℕ :=
  state.entries.countP fun entry => live entry && entry.gates.counted

def Exact (state : LaunchState) : Prop :=
  concurrentJobs state.usage = openLaunches state

variable {state state' : LaunchState} {event : Event} {view : LaunchView}
  {request : LaunchRequest}

/-! ## The counter counts launches -/

theorem countedLaunches_eq (state : LaunchState) :
    countedLaunches state = (state.entries.map Entry.gates).countP GateRecord.counted := by
  rw [countedLaunches, List.countP_map]
  rfl

theorem countedLaunches_changeRow (id : ServiceCatalog.JobId)
    (change : Option LaunchJob → Option LaunchJob) :
    countedLaunches (state.changeRow id change) = countedLaunches state := by
  rw [countedLaunches_eq, LaunchState.gates_changeRow, ← countedLaunches_eq]

theorem countedLaunches_record (usage : Option TenantUsage) (job : LaunchJob)
    (gates : GateRecord) (row : Option LaunchJob) :
    countedLaunches (state.record usage job gates row) =
      countedLaunches state + if gates.counted then 1 else 0 := by
  rw [countedLaunches, LaunchState.record, List.countP_append, List.countP_singleton,
    countedLaunches]

theorem launch_record (state : LaunchState) (view : LaunchView) (request : LaunchRequest) :
    ∃ gates row, (state.launch view request).2 =
        state.record (checkTenantQuota state.tenancyEnabled (some state.organization) request.now
          state.usage).2 (view.newJob request) gates row ∧
      gates.counted = (Metered state.tenancyEnabled (some state.organization) &&
        (checkTenantQuota state.tenancyEnabled (some state.organization) request.now
          state.usage).1.allowed) := by
  rw [LaunchState.launch_eq, ← LaunchState.usage_runGates]
  simp only
  split
  · exact ⟨_, _, rfl, LaunchState.counted_runGates⟩
  · split
    · exact ⟨_, _, rfl, LaunchState.counted_runGates⟩
    · exact ⟨_, _, rfl, LaunchState.counted_runGates⟩

def CountsLaunches (state : LaunchState) : Prop :=
  concurrentJobs state.usage = countedLaunches state

theorem countsLaunches_step (hcounts : CountsLaunches state)
    (hstep : step state event = some state') : CountsLaunches state' := by
  cases step_effect hstep with
  | launched view request =>
    obtain ⟨gates, row, hlaunch, hgates⟩ := launch_record state view request
    rw [CountsLaunches, hlaunch, countedLaunches_record, ← hcounts, hgates]
    simp only [LaunchState.record, concurrentJobs_checkTenantQuota, Bool.and_eq_true]
  | ungated job started row hstarted hentries husage =>
    rw [CountsLaunches, husage, hcounts, countedLaunches, countedLaunches, hentries,
      List.countP_append, List.countP_singleton]
    rfl
  | saved id status hentries husage | deleted id hentries husage =>
    rw [CountsLaunches, husage, hcounts, ← countedLaunches_changeRow, countedLaunches,
      countedLaunches, hentries]
  | quiet hentries husage =>
    rw [CountsLaunches, husage, hcounts, countedLaunches, countedLaunches, hentries]

/-! ## Counted launches that stay -/

theorem exact_iff_live (hcounts : CountsLaunches state) :
    Exact state ↔ ∀ entry ∈ state.entries, entry.gates.counted = true → live entry = true := by
  rw [Exact, hcounts, countedLaunches, openLaunches, ← List.countP_filter,
    List.countP_eq_length_filter, eq_comm, List.countP_eq_length]
  simp only [List.mem_filter, and_imp]

/-- The quota gate counts the launch: the tenant is metered, and every limit
leaves room for one more. -/
def Counts (state : LaunchState) (request : LaunchRequest) : Prop :=
  Metered state.tenancyEnabled (some state.organization) = true ∧
    ∀ check ∈ ((state.usage.getD (.created request.now)).rollover request.now).checks
      state.organization, check.passes = true

def GoesThrough (state : LaunchState) (view : LaunchView) (request : LaunchRequest) : Prop :=
  (state.evaluateLaunch (view.newJob request)).allowed = true ∧ request.scan.allowed = true ∧
    (view = .jobTemplate →
      PasswordsGiven (view.newJob request).passwordsNeeded request.passwords)

/-- No counted launch ends: a launch that is counted goes through, and the job of
a counted launch is neither saved in a final status nor deleted. -/
def CountedStay (state : LaunchState) : Event → Prop
  | .launch view request => Counts state request → GoesThrough state view request
  | .saveJob id status => ∀ entry, state.entries[id]? = some entry →
      entry.gates.counted = true → status.Active
  | .deleteJob id => ∀ entry, state.entries[id]? = some entry → entry.gates.counted = false
  | _ => True

theorem counts_iff :
    (Metered state.tenancyEnabled (some state.organization) &&
      (checkTenantQuota state.tenancyEnabled (some state.organization) request.now
        state.usage).1.allowed) = true ↔ Counts state request := by
  rw [Bool.and_eq_true, Counts]
  refine and_congr_right fun hmetered => ?_
  obtain ⟨tenant, htenant, hcheck⟩ := checkTenantQuota_of_metered request.now state.usage hmetered
  obtain rfl := Option.some.inj htenant
  rw [hcheck, meter_allowed_iff]

theorem created_of_goesThrough (hcounts : Counts state request)
    (hthrough : GoesThrough state view request) :
    ∃ gates row, state.launch view request = (.created state.entries.length,
        state.record (state.runGates request (view.newJob request)).usage (view.newJob request)
          gates (some row)) ∧ row.status.Active := by
  have hquota := (Bool.and_eq_true_iff.mp (counts_iff.mpr hcounts)).2
  have hresponse : (state.runGates request (view.newJob request)).response = none :=
    LaunchState.response_runGates_eq_none_iff.mpr ⟨hquota, hthrough.1, hthrough.2.1⟩
  have hjob : (state.runGates request (view.newJob request)).job.toJob =
      (view.newJob request).toJob := LaunchState.toJob_runGates
  have hstarts : view = .workflowJobTemplate ∨ ((state.runGates request
      (view.newJob request)).job.signalStart (view.passwords request)).2 = true := by
    cases view with
    | workflowJobTemplate => exact .inl rfl
    | jobTemplate =>
      have haccepted := (signalStart_accepted_iff newJob_status request.passwords).mpr
        (hthrough.2.2 rfl)
      rw [← hjob] at haccepted
      exact .inr haccepted
  rw [LaunchState.launch_eq]
  simp only [hresponse, if_pos hstarts]
  refine ⟨_, _, rfl, active_signalStart ?_ _⟩
  rw [hjob, newJob_status]
  decide

def AllLive (state : LaunchState) : Prop :=
  ∀ entry ∈ state.entries, entry.gates.counted = true → live entry = true

theorem AllLive.changeRow (hlive : AllLive state) {id : ServiceCatalog.JobId}
    {change : Option LaunchJob → Option LaunchJob}
    (hentries : state'.entries = (state.changeRow id change).entries)
    (hchange : ∀ entry, state.entries[id]? = some entry → entry.gates.counted = true →
      (change entry.job).any (fun job => job.status.Active) = true) : AllLive state' := by
  rw [AllLive, hentries]
  intro other hother hcounted
  obtain ⟨position, hposition⟩ := List.mem_iff_getElem?.mp hother
  rw [LaunchState.changeRow, List.getElem?_modify] at hposition
  obtain ⟨entry, hentry, hsame⟩ := Option.map_eq_some_iff.mp hposition
  split at hsame
  · next hid =>
    subst hid hsame
    exact hchange entry hentry hcounted
  · subst hsame
    exact hlive entry (List.mem_of_getElem? hentry) hcounted

theorem allLive_step (hlive : AllLive state) (hstay : CountedStay state event)
    (hstep : step state event = some state') : AllLive state' := by
  cases step_effect hstep with
  | launched view request =>
    by_cases hcounts : Counts state request
    · obtain ⟨gates, row, hlaunch, hactive⟩ := created_of_goesThrough hcounts (hstay hcounts)
      rw [hlaunch]
      exact forall_entries_concat hlive rfl fun _ => decide_eq_true hactive
    · obtain ⟨gates, row, hlaunch, hgates⟩ := launch_record state view request
      rw [hlaunch]
      refine forall_entries_concat hlive rfl fun hcounted => ?_
      rw [hgates] at hcounted
      exact absurd (counts_iff.mp hcounted) hcounts
  | ungated job started row hstarted hentries husage =>
    exact forall_entries_concat hlive hentries nofun
  | saved id status hentries husage =>
    refine hlive.changeRow hentries fun entry hentry hcounted => ?_
    have hactive := hstay entry hentry hcounted
    have hbefore := hlive entry (List.mem_of_getElem? hentry) hcounted
    obtain ⟨job, hjob, -⟩ := Option.any_eq_true .. |>.mp hbefore
    rw [hjob]
    exact decide_eq_true hactive
  | deleted id hentries husage =>
    refine hlive.changeRow hentries fun entry hentry hcounted => ?_
    exact absurd hcounted (ne_true_of_eq_false (hstay entry hentry))
  | quiet hentries husage =>
    rw [AllLive, hentries]
    exact hlive

/-- The counter is exact, and a launch that a gate denies or that fails to start
leaves it as it was. -/
structure CounterKept (allowed : LaunchState → Event → Prop) (state : LaunchState) : Prop where
  exact : Exact state
  ended : ∀ view request, allowed state (.launch view request) →
    (∀ job, (state.launch view request).1 ≠ .created job) →
      concurrentJobs (state.launch view request).2.usage = concurrentJobs state.usage

/-- The counter is kept in every run in which no counted launch ends. -/
theorem concurrent_jobs_exact {tenancyEnabled : Bool} {organization : Organization}
    {usage : Option TenantUsage} {policies : PolicyEvaluator.PolicySettings}
    {opa : LaunchJob → PolicyEvaluator.Policy → PolicyEvaluator.OpaAnswer}
    (hrun : Run step CountedStay (initial tenancyEnabled organization usage policies opa) state) :
    CounterKept CountedStay state := by
  have hcounts : CountsLaunches state := by
    refine hrun.invariant CountsLaunches ?_ fun _ _ _ hcounts _ hstep =>
      countsLaunches_step hcounts hstep
    cases usage <;> rfl
  have hlive : AllLive state :=
    hrun.invariant AllLive (fun _ hentry => absurd hentry List.not_mem_nil)
      fun _ _ _ hlive hstay hstep => allLive_step hlive hstay hstep
  refine ⟨(exact_iff_live hcounts).mpr hlive, fun view request hstay hended => ?_⟩
  have huncounted : ¬ Counts state request := by
    intro hcounted
    obtain ⟨gates, row, hlaunch, -⟩ := created_of_goesThrough hcounted (hstay hcounted)
    exact hended _ (congrArg Prod.fst hlaunch)
  obtain ⟨gates, row, hlaunch, -⟩ := launch_record state view request
  have huncounted : ¬ (Metered state.tenancyEnabled (some state.organization) = true ∧
      (checkTenantQuota state.tenancyEnabled (some state.organization) request.now
        state.usage).1.allowed = true) := fun hboth =>
    huncounted (counts_iff.mp (Bool.and_eq_true_iff.mpr hboth))
  rw [hlaunch]
  simp only [LaunchState.record, concurrentJobs_checkTenantQuota, if_neg huncounted, Nat.add_zero]

/-! ## A launch that the scanner denies -/

def limitedTenant : Organization where
  isTenantRoot := true
  tenantMaxConcurrentJobs := some 2
  tenantMaxDailyLaunches := none
  tenantMaxHosts := none
  tenantMaxStorageMb := none

def policiesOff : PolicyEvaluator.PolicySettings where
  opaEnabled := false
  organization := some 1
  orgEnforcement := .none
  failMode := "allow"
  policies := []

def plainPrompts : ServiceCatalog.Job where
  template := 5
  status := .new
  createdBy := some 9
  extraVars := []
  nodeSurveyData := none
  passwordsNeeded := []

def scannedLaunch (scanAllowed : Bool) : LaunchRequest where
  kind := .job
  prompts := plainPrompts
  passwords := []
  now := 0
  scan := ⟨scanAllowed, [], []⟩

def limitedState : LaunchState :=
  initial true limitedTenant none policiesOff fun _ _ => .decided [] []

theorem concurrent_jobs_exact_launch :
    ∃ state, Run step CountedStay limitedState state ∧ concurrentJobs state.usage = 1 ∧
      CounterKept CountedStay state := by
  have hthrough : GoesThrough limitedState .jobTemplate (scannedLaunch true) :=
    ⟨rfl, rfl, fun _ _ hfield => absurd hfield List.not_mem_nil⟩
  have hlaunched : Run step CountedStay limitedState
      (limitedState.launch .jobTemplate (scannedLaunch true)).2 :=
    .next (.launch .jobTemplate (scannedLaunch true)) .start (fun _ => hthrough) rfl
  exact ⟨_, hlaunched, by decide, concurrent_jobs_exact hlaunched⟩

theorem denied_launch_stays_counted :
    ¬ ∀ (tenancyEnabled : Bool) (organization : Organization) (usage : Option TenantUsage)
      (policies : PolicyEvaluator.PolicySettings)
      (opa : LaunchJob → PolicyEvaluator.Policy → PolicyEvaluator.OpaAnswer)
      (state : LaunchState),
      Run step (fun _ _ => True) (initial tenancyEnabled organization usage policies opa) state →
        CounterKept (fun _ _ => True) state := by
  intro hclaim
  have hevents : (([.launch .jobTemplate (scannedLaunch false)] : List Event).foldlM step
      limitedState).any (fun state =>
        decide (concurrentJobs state.usage = 1 ∧ openLaunches state = 0)) = true := by decide
  obtain ⟨state, hrun, htest⟩ := exists_run_of_any _ hevents
  obtain ⟨hone, hnone⟩ := of_decide_eq_true htest
  have hexact := (hclaim _ _ _ _ _ state hrun).exact
  rw [Exact, hone, hnone] at hexact
  exact absurd hexact (by decide)

end Forail.ConcurrentJobs
