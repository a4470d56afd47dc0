import Forail.Core.Runs
import Forail.Tenancy.Quota
import Mathlib.Data.Nat.Basic
import Mathlib.Logic.Function.Basic
import Mathlib.Order.Basic

/-!
# The daily quota of a tenant

The quota gate and the receiver for finished jobs lock the usage row of the tenant.
The periodic recalculation reads the row without a lock and later saves all of its
columns, so it takes launches off the counter that were allowed in between.
-/

namespace Forail.DailyQuota

open Forail.Runs Forail.TenantQuota

abbrev Client := ℕ

def save (usage : TenantUsage) (now : Time) : TenantUsage :=
  if usage.launchesTodayWindowStart = none then
    { usage with launchesTodayWindowStart := some (resetDailyWindow now).1 }
  else usage

/-- What `recalculate_tenant_usage` saves: the row that it has read, with the counts
it has made.  A count that fails keeps the value of the row. -/
def recalculated (usage : TenantUsage) (hostsCount running : Option ℕ) (now : Time) :
    TenantUsage :=
  save
    { usage with
      hostsCount := hostsCount.getD usage.hostsCount
      concurrentJobsCount := running.getD usage.concurrentJobsCount } now

/-- A recalculation on its way, with the launches that were allowed before it read
the row. -/
structure Recalculation where
  usage : TenantUsage
  seen : List Time
  deriving DecidableEq, Repr

/-- The usage row of the tenant, and the times of the launches that were allowed. -/
structure QuotaState where
  usage : Option TenantUsage
  now : Time
  recalculations : Client → Option Recalculation
  launches : List Time

namespace QuotaState

def initial (now : Time) : QuotaState where
  usage := none
  now := now
  recalculations := fun _ => none
  launches := []

variable (state : QuotaState)

def launch (organization : Organization) : QuotaState :=
  let answer := checkTenantQuota true (some organization) state.now state.usage
  { state with
    usage := answer.2
    launches := if answer.1.allowed then state.launches ++ [state.now] else state.launches }

def row : TenantUsage := state.usage.getD (.created state.now)

def readUsage (client : Client) : QuotaState :=
  { state with
    usage := some state.row
    recalculations := Function.update state.recalculations client
      (some ⟨state.row, state.launches⟩) }

def saveUsage (client : Client) (recalculation : Recalculation)
    (hostsCount running : Option ℕ) : QuotaState :=
  { state with
    usage := some (recalculated recalculation.usage hostsCount running state.now)
    recalculations := Function.update state.recalculations client none }

end QuotaState

inductive Event where
  | clock (time : Time)
  | launch
  | jobFinished
  | readUsage (client : Client)
  | saveUsage (client : Client) (hostsCount running : Option ℕ)
  deriving DecidableEq, Repr

def step (organization : Organization) (state : QuotaState) : Event → Option QuotaState
  | .clock time => if state.now ≤ time then some { state with now := time } else none
  | .launch => some (state.launch organization)
  | .jobFinished => some { state with usage := onJobFinished (some organization) state.usage }
  | .readUsage client => some (state.readUsage client)
  | .saveUsage client hostsCount running =>
      (state.recalculations client).map fun recalculation =>
        state.saveUsage client recalculation hostsCount running

def day (time : Time) : ℕ := time / secondsPerDay

/-- No day has more launches than the limit, and the counter is the number of the
launches since its window was opened. -/
structure DailyQuotaKept (limit : ℕ) (state : QuotaState) : Prop where
  daily : ∀ date, state.launches.countP (fun time => day time = date) ≤ limit
  counter : ∀ usage start, state.usage = some usage →
    usage.launchesTodayWindowStart = some start →
      usage.launchesTodayCount = state.launches.countP fun time => start ≤ time

def SavesCurrent (state : QuotaState) : Event → Prop
  | .saveUsage client _ _ => ∀ recalculation, state.recalculations client = some recalculation →
      state.launches = recalculation.seen
  | _ => True

/-! ## A row that counts the launches -/

/-- The row counts the launches of its window, none of which comes after the day of
the window. -/
structure Counts (launches : List Time) (now : Time) (usage : TenantUsage) : Prop where
  window : ∃ start, usage.launchesTodayWindowStart = some start ∧ start % secondsPerDay = 0 ∧
    start ≤ now ∧ usage.launchesTodayCount = launches.countP (fun time => start ≤ time) ∧
      ∀ time ∈ launches, day time ≤ day start

variable {organization : Organization} {limit : ℕ} {state state' : QuotaState} {event : Event}
  {launches : List Time} {now : Time} {usage : TenantUsage}

theorem Counts.later {time : Time} (hcounts : Counts launches now usage) (htime : now ≤ time) :
    Counts launches time usage := by
  obtain ⟨start, hstart, htop, hnow, hcount⟩ := hcounts.window
  exact ⟨start, hstart, htop, hnow.trans htime, hcount⟩

theorem Counts.congr {usage' : TenantUsage} (hcounts : Counts launches now usage)
    (hcount : usage'.launchesTodayCount = usage.launchesTodayCount)
    (hwindow : usage'.launchesTodayWindowStart = usage.launchesTodayWindowStart) :
    Counts launches now usage' := by
  obtain ⟨start, hstart, htop, hnow, hlaunches, hdays⟩ := hcounts.window
  exact ⟨start, hwindow.trans hstart, htop, hnow, hcount.trans hlaunches, hdays⟩

theorem topOfDay_le (now : Time) : now / secondsPerDay * secondsPerDay ≤ now :=
  Nat.div_mul_le_self now secondsPerDay

theorem day_topOfDay (now : Time) : day (now / secondsPerDay * secondsPerDay) = day now :=
  Nat.mul_div_cancel _ (by decide)

theorem topOfDay_mod (now : Time) : now / secondsPerDay * secondsPerDay % secondsPerDay = 0 :=
  Nat.mul_mod_left _ _

theorem counts_created (now : Time) : Counts [] now (.created now) :=
  ⟨_, rfl, topOfDay_mod now, topOfDay_le now, rfl, fun _ hmem => absurd hmem List.not_mem_nil⟩

theorem Counts.rollover (hcounts : Counts launches now usage) :
    Counts launches now (usage.rollover now) ∧
      ∃ start, (usage.rollover now).launchesTodayWindowStart = some start ∧ day start = day now := by
  obtain ⟨start, hstart, htop, hnow, hcount, hdays⟩ := hcounts.window
  rw [TenantUsage.rollover, hstart]
  split
  · next hexpired =>
    have hday : day start < day now := by
      have hne : day start ≠ day now := of_decide_eq_true hexpired
      exact lt_of_le_of_ne (Nat.div_le_div_right hnow) hne
    refine ⟨⟨_, rfl, topOfDay_mod now, topOfDay_le now, ?_, fun time htime => ?_⟩,
      _, rfl, day_topOfDay now⟩
    · symm
      apply List.countP_eq_zero.mpr
      intro time htime hlate
      have hbefore := hdays time htime
      have hafter : day now ≤ day time := by
        rw [← day_topOfDay now]
        exact Nat.div_le_div_right (of_decide_eq_true hlate)
      omega
    · exact (hdays time htime).trans (hday.le.trans (day_topOfDay now).ge)
  · next hsame =>
    have heq : day start = day now := not_not.mp fun hne => hsame (decide_eq_true hne)
    exact ⟨⟨start, hstart, htop, hnow, hcount, hdays⟩, start, hstart, heq⟩

theorem countP_window {start : Time} (htop : start % secondsPerDay = 0)
    (hdays : ∀ time ∈ launches, day time ≤ day start) :
    launches.countP (fun time => start ≤ time) =
      launches.countP fun time => day time = day start := by
  apply List.countP_congr
  intro time htime
  have hbefore := hdays time htime
  have hstart : day start * secondsPerDay = start :=
    Nat.div_mul_cancel (Nat.dvd_of_mod_eq_zero htop)
  rw [decide_eq_true_eq, decide_eq_true_eq]
  constructor
  · intro hlate
    exact hbefore.antisymm (Nat.div_le_div_right hlate)
  · intro hday
    calc start = day time * secondsPerDay := by rw [hday, hstart]
      _ ≤ time := topOfDay_le time

/-! ## A launch -/

theorem meter_blocked {current : TenantUsage}
    (hblocked : (meter organization current).1.allowed = false) :
    (meter organization current).2 = current := by
  rw [meter] at hblocked ⊢
  split
  · rfl
  · next hnone => simp [hnone] at hblocked

theorem meter_allowed {current : TenantUsage}
    (hallowed : (meter organization current).1.allowed = true) :
    (meter organization current).2 = current.counted := by
  rw [meter] at hallowed ⊢
  split
  · next check hfound => simp [hfound] at hallowed
  · rfl

theorem lt_of_allowed {current : TenantUsage} (hlimit : organization.tenantMaxDailyLaunches =
    some limit) (hpos : limit ≠ 0) (hallowed : (meter organization current).1.allowed = true) :
    current.launchesTodayCount < limit := by
  have hpasses := (meter_allowed_iff organization current).mp hallowed
    ⟨.dailyLaunches, current.launchesTodayCount, organization.tenantMaxDailyLaunches⟩
    (List.mem_cons_of_mem _ List.mem_cons_self)
  rw [QuotaCheck.passes, hlimit, checkQuotaValue] at hpasses
  simpa [hpos] using hpasses

theorem Counts.counted {start : Time} (hcounts : Counts launches now usage)
    (hwindow : usage.launchesTodayWindowStart = some start) (htoday : day start = day now) :
    Counts (launches ++ [now]) now usage.counted := by
  obtain ⟨start', hstart, htop, hnow, hcount, hdays⟩ := hcounts.window
  obtain rfl := Option.some.inj (hwindow.symm.trans hstart)
  refine ⟨start, hwindow, htop, hnow, ?_, fun time htime => ?_⟩
  · rw [List.countP_append, List.countP_singleton, if_pos (decide_eq_true hnow), ← hcount]
    rfl
  · obtain hold | hnew := List.mem_append.mp htime
    · exact hdays time hold
    · rw [List.mem_singleton.mp hnew, htoday]

theorem daily_counted {start : Time} (hcounts : Counts launches now usage)
    (hwindow : usage.launchesTodayWindowStart = some start) (htoday : day start = day now)
    (hroom : usage.launchesTodayCount < limit)
    (hdaily : ∀ date, launches.countP (fun time => day time = date) ≤ limit) (date : ℕ) :
    (launches ++ [now]).countP (fun time => day time = date) ≤ limit := by
  rw [List.countP_append, List.countP_singleton]
  split
  · next hdate =>
    obtain rfl : day now = date := of_decide_eq_true hdate
    obtain ⟨start', hstart, htop, -, hcount, hdays⟩ := hcounts.window
    obtain rfl := Option.some.inj (hwindow.symm.trans hstart)
    rw [countP_window htop hdays, htoday] at hcount
    omega
  · exact hdaily date

/-! ## Runs -/

/-- What a run keeps: the row counts the launches, and the row of a recalculation
those that it has not missed. -/
structure Kept (limit : ℕ) (state : QuotaState) : Prop where
  daily : ∀ date, state.launches.countP (fun time => day time = date) ≤ limit
  fresh : state.usage = none → state.launches = []
  counts : ∀ usage, state.usage = some usage → Counts state.launches state.now usage
  recalculations : ∀ client recalculation, state.recalculations client = some recalculation →
    Counts recalculation.seen state.now recalculation.usage

theorem kept_initial (limit : ℕ) (now : Time) : Kept limit (.initial now) where
  daily _ := Nat.zero_le _
  fresh _ := rfl
  counts := nofun
  recalculations := nofun

theorem Kept.row (hkept : Kept limit state) : Counts state.launches state.now state.row := by
  cases husage : state.usage with
  | none =>
    rw [QuotaState.row, husage, hkept.fresh husage]
    exact counts_created state.now
  | some usage =>
    rw [QuotaState.row, husage]
    exact hkept.counts usage husage

theorem kept_launch (hroot : organization.isTenantRoot = true)
    (hlimit : organization.tenantMaxDailyLaunches = some limit) (hpos : limit ≠ 0)
    (hkept : Kept limit state) : Kept limit (state.launch organization) := by
  have hmetered : Metered true (some organization) = true := hroot
  obtain ⟨tenant, htenant, hcheck⟩ :=
    checkTenantQuota_of_metered state.now state.usage hmetered
  obtain rfl := Option.some.inj htenant
  obtain ⟨hrow, start, hwindow, htoday⟩ := hkept.row.rollover
  have hlaunch : state.launch organization =
      { state with
        usage := some (meter organization (state.row.rollover state.now)).2
        launches := if (meter organization (state.row.rollover state.now)).1.allowed then
          state.launches ++ [state.now] else state.launches } := by
    rw [QuotaState.launch, hcheck]
    rfl
  rw [hlaunch]
  cases hallowed : (meter organization (state.row.rollover state.now)).1.allowed with
  | false =>
    rw [meter_blocked hallowed, if_neg Bool.false_ne_true]
    refine ⟨hkept.daily, nofun, fun usage husage => ?_, hkept.recalculations⟩
    exact Option.some.inj husage ▸ hrow
  | true =>
    rw [meter_allowed hallowed, if_pos rfl]
    have hroom := lt_of_allowed hlimit hpos hallowed
    refine ⟨daily_counted hrow hwindow htoday hroom hkept.daily, nofun,
      fun usage husage => ?_, hkept.recalculations⟩
    exact Option.some.inj husage ▸ hrow.counted hwindow htoday

theorem counts_recalculated (hcounts : Counts launches now usage)
    (hostsCount running : Option ℕ) :
    Counts launches now (recalculated usage hostsCount running now) := by
  obtain ⟨start, hstart, hrest⟩ := hcounts.window
  have hsave : recalculated usage hostsCount running now =
      { usage with
        hostsCount := hostsCount.getD usage.hostsCount
        concurrentJobsCount := running.getD usage.concurrentJobsCount } := by
    rw [recalculated, save, if_neg]
    simp [hstart]
  rw [hsave]
  exact ⟨start, hstart, hrest⟩

theorem Kept.recalculations_update {client : Client} {found : Option Recalculation}
    (hkept : Kept limit state)
    (hfound : ∀ recalculation, found = some recalculation →
      Counts recalculation.seen state.now recalculation.usage) :
    ∀ other recalculation,
      Function.update state.recalculations client found other = some recalculation →
        Counts recalculation.seen state.now recalculation.usage := by
  apply (Function.forall_update_iff state.recalculations fun _ found =>
    ∀ recalculation, found = some recalculation →
      Counts recalculation.seen state.now recalculation.usage).mpr
  exact ⟨hfound, fun other _ => hkept.recalculations other⟩

theorem kept_step (hroot : organization.isTenantRoot = true)
    (hlimit : organization.tenantMaxDailyLaunches = some limit) (hpos : limit ≠ 0)
    (hkept : Kept limit state) (hcurrent : SavesCurrent state event)
    (hstep : step organization state event = some state') : Kept limit state' := by
  cases event with
  | clock time =>
    obtain ⟨htime, hstep⟩ := Option.ite_none_right_eq_some.mp hstep
    obtain rfl := Option.some.inj hstep
    exact ⟨hkept.daily, hkept.fresh, fun usage husage => (hkept.counts usage husage).later htime,
      fun client recalculation hfound =>
        (hkept.recalculations client recalculation hfound).later htime⟩
  | launch =>
    obtain rfl := Option.some.inj hstep
    exact kept_launch hroot hlimit hpos hkept
  | jobFinished =>
    obtain rfl := Option.some.inj hstep
    have hfinished : onJobFinished (some organization) state.usage =
        state.usage.map TenantUsage.finished := if_neg (not_not_intro hroot)
    refine ⟨hkept.daily, fun hnone => ?_, fun usage husage => ?_, hkept.recalculations⟩
    · simp only [hfinished, Option.map_eq_none_iff] at hnone
      exact hkept.fresh hnone
    · simp only [hfinished] at husage
      obtain ⟨before, hbefore, rfl⟩ := Option.map_eq_some_iff.mp husage
      exact (hkept.counts before hbefore).congr rfl rfl
  | readUsage client =>
    obtain rfl := Option.some.inj hstep
    refine ⟨hkept.daily, nofun, fun usage husage => ?_, hkept.recalculations_update ?_⟩
    · exact Option.some.inj husage ▸ hkept.row
    · intro recalculation hbegun
      exact Option.some.inj hbegun ▸ hkept.row
  | saveUsage client hostsCount running =>
    obtain ⟨recalculation, hread, rfl⟩ := Option.map_eq_some_iff.mp hstep
    have hcounts := hkept.recalculations client recalculation hread
    rw [← hcurrent recalculation hread] at hcounts
    refine ⟨hkept.daily, nofun, fun usage husage => ?_, hkept.recalculations_update nofun⟩
    exact Option.some.inj husage ▸ counts_recalculated hcounts hostsCount running

def dailyTenant : Organization where
  isTenantRoot := true
  tenantMaxConcurrentJobs := none
  tenantMaxDailyLaunches := some 1
  tenantMaxHosts := none
  tenantMaxStorageMb := none

end Forail.DailyQuota
