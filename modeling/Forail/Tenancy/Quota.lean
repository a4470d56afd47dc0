import Forail.Models.UnifiedJobs

/-!
# Tenant quotas

The quota gate compares the usage of a tenant with its limits.  When every limit
leaves room for one more launch, the launch is counted at once.  A receiver for
saved jobs is meant to take a finished job off the counter again.
-/

namespace Forail.TenantQuota

open Forail.UnifiedJobs

abbrev Time := ℕ

def secondsPerDay : ℕ := 86400

inductive QuotaKind where
  | concurrentJobs
  | dailyLaunches
  | hosts
  | storageMb
  deriving DecidableEq, Repr

namespace QuotaKind

def name : QuotaKind → String
  | concurrentJobs => "concurrent_jobs"
  | dailyLaunches => "daily_launches"
  | hosts => "hosts"
  | storageMb => "storage_mb"

def label : QuotaKind → String
  | concurrentJobs => "Concurrent jobs"
  | dailyLaunches => "Daily launches"
  | hosts => "Hosts"
  | storageMb => "Storage (MB)"

end QuotaKind

def checkQuotaValue (current : ℕ) : Option ℕ → Bool
  | none => true
  | some limit => limit = 0 || current < limit

def isWindowExpired (windowStart : Option Time) (now : Time) : Bool :=
  match windowStart with
  | none => true
  | some start => start / secondsPerDay ≠ now / secondsPerDay

def resetDailyWindow (now : Time) : Time × ℕ :=
  (now / secondsPerDay * secondsPerDay, 0)

def formatQuotaMessage (kind : QuotaKind) (current : ℕ) (limit : Option ℕ) : String :=
  let lim := match limit with
    | none | some 0 => "unlimited"
    | some limit => toString limit
  kind.label ++ " quota exceeded (" ++ toString current ++ "/" ++ lim ++ ")"

structure Organization where
  isTenantRoot : Bool
  tenantMaxConcurrentJobs : Option ℕ
  tenantMaxDailyLaunches : Option ℕ
  tenantMaxHosts : Option ℕ
  tenantMaxStorageMb : Option ℕ
  deriving DecidableEq, Repr

structure TenantUsage where
  concurrentJobsCount : ℕ
  launchesTodayCount : ℕ
  launchesTodayWindowStart : Option Time
  hostsCount : ℕ
  storageMbUsed : ℕ
  deriving DecidableEq, Repr

inductive QuotaDecision where
  | allowed
  | blocked
  deriving DecidableEq, Repr

structure TenantQuotaEvent where
  quotaKind : QuotaKind
  decision : QuotaDecision
  currentValue : ℕ
  limitValue : Option ℕ
  message : String
  deriving DecidableEq, Repr

structure QuotaResult where
  allowed : Bool
  reasons : List String
  events : List TenantQuotaEvent
  deriving DecidableEq, Repr

structure QuotaCheck where
  kind : QuotaKind
  current : ℕ
  limit : Option ℕ
  deriving DecidableEq, Repr

namespace QuotaCheck

variable (check : QuotaCheck)

def passes : Bool := checkQuotaValue check.current check.limit

def message : String := formatQuotaMessage check.kind check.current check.limit

def event (decision : QuotaDecision) (message : String) : TenantQuotaEvent where
  quotaKind := check.kind
  decision := decision
  currentValue := check.current
  limitValue := check.limit.filter fun limit => limit ≠ 0
  message := message

end QuotaCheck

namespace TenantUsage

/-- A row made by `get_or_create`; its `save` opens the daily window. -/
def created (now : Time) : TenantUsage where
  concurrentJobsCount := 0
  launchesTodayCount := 0
  launchesTodayWindowStart := some (resetDailyWindow now).1
  hostsCount := 0
  storageMbUsed := 0

variable (usage : TenantUsage)

def rollover (now : Time) : TenantUsage :=
  if isWindowExpired usage.launchesTodayWindowStart now then
    { usage with
      launchesTodayWindowStart := some (resetDailyWindow now).1
      launchesTodayCount := (resetDailyWindow now).2 }
  else usage

def checks (organization : Organization) : List QuotaCheck :=
  [⟨.concurrentJobs, usage.concurrentJobsCount, organization.tenantMaxConcurrentJobs⟩,
    ⟨.dailyLaunches, usage.launchesTodayCount, organization.tenantMaxDailyLaunches⟩,
    ⟨.hosts, usage.hostsCount, organization.tenantMaxHosts⟩,
    ⟨.storageMb, usage.storageMbUsed, organization.tenantMaxStorageMb⟩]

def counted : TenantUsage :=
  { usage with
    concurrentJobsCount := usage.concurrentJobsCount + 1
    launchesTodayCount := usage.launchesTodayCount + 1 }

def finished : TenantUsage :=
  { usage with concurrentJobsCount := usage.concurrentJobsCount - 1 }

end TenantUsage

/-- The gate counts launches: tenancy is enabled, and the organization of the job
is the root of a tenant. -/
def Metered (tenancyEnabled : Bool) (organization : Option Organization) : Bool :=
  tenancyEnabled && organization.any Organization.isTenantRoot

/-- The checks of a metered launch.  The first one that fails blocks the launch;
otherwise the launch is counted. -/
def meter (organization : Organization) (current : TenantUsage) : QuotaResult × TenantUsage :=
  let checks := current.checks organization
  match checks.find? fun check => !check.passes with
  | some check => (⟨false, [check.message], [check.event .blocked check.message]⟩, current)
  | none => (⟨true, [], checks.map fun check => check.event .allowed ""⟩, current.counted)

/-- The verdict on a launch, with the usage row of the tenant after it.  A blocked
launch still saves the daily window. -/
def checkTenantQuota (tenancyEnabled : Bool) (organization : Option Organization) (now : Time)
    (usage : Option TenantUsage) : QuotaResult × Option TenantUsage :=
  if ¬ tenancyEnabled then (⟨true, [], []⟩, usage)
  else
    match organization with
    | none => (⟨true, [], []⟩, usage)
    | some organization =>
        if ¬ organization.isTenantRoot then (⟨true, [], []⟩, usage)
        else
          let result := meter organization ((usage.getD (.created now)).rollover now)
          (result.1, some result.2)

def onJobFinished (organization : Option Organization) (usage : Option TenantUsage) :
    Option TenantUsage :=
  match organization with
  | none => usage
  | some organization =>
      if ¬ organization.isTenantRoot then usage else usage.map TenantUsage.finished

/-- The models of the rows that jobs are stored as; each is a subclass of
`UnifiedJob`. -/
inductive JobKind where
  | job
  | workflowJob
  | adHocCommand
  | projectUpdate
  | inventoryUpdate
  | systemJob
  | workflowApproval
  deriving DecidableEq, Repr

inductive Sender where
  | unifiedJob
  | subclass (kind : JobKind)
  deriving DecidableEq, Repr

def TenancyTerminal (status : JobStatus) : Prop :=
  status ∈ [JobStatus.successful, .failed, .error, .canceled]

instance : DecidablePred TenancyTerminal := fun status =>
  inferInstanceAs (Decidable (status ∈ [JobStatus.successful, .failed, .error, .canceled]))

def tenancyOnUnifiedJobSave (organization : Option Organization) (created : Bool)
    (status : JobStatus) (usage : Option TenantUsage) : Option TenantUsage :=
  if created then usage
  else if ¬ TenancyTerminal status then usage
  else onJobFinished organization usage

/-- `post_save` of a job.  The receiver is connected with `sender=UnifiedJob`, and
such a receiver hears that very class only. -/
def postSave (sender : Sender) (organization : Option Organization) (created : Bool)
    (status : JobStatus) (usage : Option TenantUsage) : Option TenantUsage :=
  if sender = .unifiedJob then tenancyOnUnifiedJobSave organization created status usage
  else usage

/-! ## The counter -/

def concurrentJobs (usage : Option TenantUsage) : ℕ :=
  usage.elim 0 TenantUsage.concurrentJobsCount

variable {tenancyEnabled : Bool} {organization : Option Organization} {now : Time}
  {usage : Option TenantUsage}

theorem postSave_subclass (organization : Option Organization) (kind : JobKind) (created : Bool)
    (status : JobStatus) :
    postSave (.subclass kind) organization created status usage = usage := by
  rw [postSave, if_neg nofun]

@[simp]
theorem concurrentJobsCount_rollover (usage : TenantUsage) :
    (usage.rollover now).concurrentJobsCount = usage.concurrentJobsCount := by
  rw [TenantUsage.rollover]
  split <;> rfl

theorem concurrentJobsCount_getD :
    (usage.getD (.created now)).concurrentJobsCount = concurrentJobs usage := by
  cases usage <;> rfl

theorem checkTenantQuota_of_not_metered (now : Time) (usage : Option TenantUsage)
    (hmetered : Metered tenancyEnabled organization = false) :
    checkTenantQuota tenancyEnabled organization now usage = (⟨true, [], []⟩, usage) := by
  cases tenancyEnabled with
  | false => rfl
  | true =>
    cases organization with
    | none => rfl
    | some organization =>
      have hroot : ¬ organization.isTenantRoot = true := ne_true_of_eq_false hmetered
      rw [checkTenantQuota.eq_def, if_neg (not_not_intro rfl)]
      exact if_pos hroot

theorem checkTenantQuota_of_metered (now : Time) (usage : Option TenantUsage)
    (hmetered : Metered tenancyEnabled organization = true) :
    ∃ tenant, organization = some tenant ∧
      checkTenantQuota tenancyEnabled organization now usage =
        ((meter tenant ((usage.getD (.created now)).rollover now)).1,
          some (meter tenant ((usage.getD (.created now)).rollover now)).2) := by
  obtain ⟨henabled, hroot⟩ := Bool.and_eq_true_iff.mp hmetered
  obtain ⟨tenant, rfl, hroot⟩ := Option.any_eq_true .. |>.mp hroot
  refine ⟨tenant, rfl, ?_⟩
  rw [checkTenantQuota.eq_def, if_neg (not_not_intro henabled)]
  exact if_neg (not_not_intro hroot)

theorem meter_allowed_iff (tenant : Organization) (current : TenantUsage) :
    (meter tenant current).1.allowed = true ↔
      ∀ check ∈ current.checks tenant, check.passes = true := by
  rw [meter]
  split
  · next check hfailing =>
    refine iff_of_false Bool.false_ne_true fun hpasses => ?_
    have hfails := List.find?_some hfailing
    rw [hpasses check (List.mem_of_find?_eq_some hfailing)] at hfails
    exact Bool.false_ne_true hfails
  · next hnone =>
    refine iff_of_true rfl fun check hmem => ?_
    simpa using List.find?_eq_none.mp hnone check hmem

theorem concurrentJobsCount_meter (tenant : Organization) (current : TenantUsage) :
    (meter tenant current).2.concurrentJobsCount =
      current.concurrentJobsCount + if (meter tenant current).1.allowed then 1 else 0 := by
  rw [meter]
  split <;> rfl

theorem concurrentJobs_checkTenantQuota :
    concurrentJobs (checkTenantQuota tenancyEnabled organization now usage).2 =
      concurrentJobs usage +
        if Metered tenancyEnabled organization ∧
          (checkTenantQuota tenancyEnabled organization now usage).1.allowed then 1 else 0 := by
  cases hmetered : Metered tenancyEnabled organization with
  | false => simp [checkTenantQuota_of_not_metered now usage hmetered]
  | true =>
    obtain ⟨tenant, -, hcheck⟩ := checkTenantQuota_of_metered now usage hmetered
    simp only [hcheck, true_and, concurrentJobs, Option.elim_some, concurrentJobsCount_meter,
      concurrentJobsCount_rollover, concurrentJobsCount_getD]

end Forail.TenantQuota
