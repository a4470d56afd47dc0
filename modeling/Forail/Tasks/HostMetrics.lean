import Mathlib.Data.List.Dedup
import Mathlib.Data.List.Sort
import Forail.Core.OrderedDicts

/-!
# The monthly summary of host metrics

`HostMetricSummaryMonthlyTask` counts the hosts that were first automated and the
deleted hosts of each month, and fills one summary a month from the first month that
the hard cleanup keeps to the current one.  Months are numbered; the task dates a
summary with the first day of its month, so a date is a month here.
-/

namespace Forail.HostMetrics

open Forail.OrderedDicts

abbrev Month := ℤ

structure HostMetric where
  firstAutomation : Month
  lastDeleted : Option Month
  deleted : Bool
  deriving DecidableEq, Repr

structure HostMetricSummaryMonthly where
  date : Month
  licenseConsumed : ℤ
  licenseCapacity : ℤ
  hostsAdded : ℕ
  hostsDeleted : ℕ
  deriving DecidableEq, Repr

structure MonthCounts where
  hostsAdded : Option ℕ
  hostsDeleted : Option ℕ
  deriving DecidableEq, Repr

abbrev MonthDict := OrderedDict Month MonthCounts

/-- The months of a column in ascending order, each with its number of rows. -/
def countByMonth (column : List Month) : List (Month × ℕ) :=
  (column.dedup.insertionSort (· ≤ ·)).map fun month => (month, column.count month)

def firstAutomations (metrics : List HostMetric) : List Month :=
  metrics.map HostMetric.firstAutomation

/-- The column `last_deleted` of the rows that are deleted now; the rows without a
date form a group without a month, which the task passes over. -/
def deletions (metrics : List HostMetric) : List Month :=
  (metrics.filter HostMetric.deleted).filterMap HostMetric.lastDeleted

def loadHostsAdded (metrics : List HostMetric) (hostMetrics : MonthDict) : MonthDict :=
  upsertAll ⟨none, none⟩ Prod.fst
    (fun row counts => { counts with hostsAdded := some row.2 })
    (countByMonth (firstAutomations metrics)) hostMetrics

def loadHostsDeleted (metrics : List HostMetric) (hostMetrics : MonthDict) : MonthDict :=
  upsertAll ⟨none, none⟩ Prod.fst
    (fun row counts => { counts with hostsDeleted := some row.2 })
    (countByMonth (deletions metrics)) hostMetrics

def loadHosts (metrics : List HostMetric) : MonthDict :=
  loadHostsDeleted metrics (loadHostsAdded metrics [])

def MonthCounts.net (counts : MonthCounts) : ℤ :=
  counts.hostsAdded.getD 0 - counts.hostsDeleted.getD 0

/-- `_get_license_consumed_before`, which stops at the first month that is not before
the given one. -/
def getLicenseConsumedBefore (month : Month) : MonthDict → ℤ → ℤ
  | [], licenseConsumed => licenseConsumed
  | (metricMonth, metric) :: rest, licenseConsumed =>
      if metricMonth < month then
        getLicenseConsumedBefore month rest
          (licenseConsumed + metric.hostsAdded.getD 0 - metric.hostsDeleted.getD 0)
      else licenseConsumed

/-- `_find_summary`, with the summaries from the index on instead of the index. -/
def findSummary (month : Month) : List HostMetricSummaryMonthly →
    Option HostMetricSummaryMonthly × List HostMetricSummaryMonthly
  | [] => (none, [])
  | tmp :: rest =>
      if tmp.date < month then findSummary month rest
      else if tmp.date = month then (some tmp, tmp :: rest)
      else (none, tmp :: rest)

structure Inputs where
  hostMetrics : MonthDict
  today : Month
  instanceCount : ℤ

def updateSummary (inputs : Inputs) (summary : HostMetricSummaryMonthly) (month : Month)
    (licenseConsumed : ℤ) : HostMetricSummaryMonthly :=
  let counts := (lookup inputs.hostMetrics month).getD ⟨none, none⟩
  { summary with
    licenseConsumed :=
      licenseConsumed + counts.hostsAdded.getD 0 - counts.hostsDeleted.getD 0
    hostsAdded := counts.hostsAdded.getD 0
    hostsDeleted := counts.hostsDeleted.getD 0
    licenseCapacity :=
      if month = inputs.today then inputs.instanceCount else summary.licenseCapacity }

structure TaskState where
  existingSummaries : List HostMetricSummaryMonthly
  recordsToCreate : List HostMetricSummaryMonthly
  recordsToUpdate : List HostMetricSummaryMonthly
  licenseConsumed : ℤ

def fillMonth (inputs : Inputs) (state : TaskState) (month : Month) : TaskState :=
  match findSummary month state.existingSummaries with
  | (some found, rest) =>
      let summary := updateSummary inputs found month state.licenseConsumed
      { state with
        existingSummaries := rest
        recordsToUpdate := state.recordsToUpdate ++ [summary]
        licenseConsumed := summary.licenseConsumed }
  | (none, rest) =>
      let summary := updateSummary inputs ⟨month, 0, 0, 0, 0⟩ month state.licenseConsumed
      { state with
        existingSummaries := rest
        recordsToCreate := state.recordsToCreate ++ [summary]
        licenseConsumed := summary.licenseConsumed }

def fillMonths (inputs : Inputs) : ℕ → Month → TaskState → TaskState
  | 0, _, state => state
  | left + 1, month, state =>
      fillMonths inputs left (month + 1) (fillMonth inputs state month)

def getFirstMonth (today threshold : ℤ) : Month := today - (threshold - 1)

def bulkUpdate (records table : List HostMetricSummaryMonthly) :
    List HostMetricSummaryMonthly :=
  table.map fun row =>
    match records.find? fun record => record.date = row.date with
    | some record =>
        { row with
          licenseConsumed := record.licenseConsumed
          hostsAdded := record.hostsAdded
          hostsDeleted := record.hostsDeleted }
    | none => row

def loadExistingSummaries (first : Month) (table : List HostMetricSummaryMonthly) :
    List HostMetricSummaryMonthly :=
  (table.filter fun summary => first ≤ summary.date).insertionSort
    fun left right => left.date ≤ right.date

def execute (metrics : List HostMetric) (table : List HostMetricSummaryMonthly)
    (today threshold instanceCount : ℤ) : List HostMetricSummaryMonthly :=
  let month := getFirstMonth today threshold
  let hostMetrics := loadHosts metrics
  let state := fillMonths ⟨hostMetrics, today, instanceCount⟩ (today + 1 - month).toNat month
    { existingSummaries := loadExistingSummaries month table
      recordsToCreate := []
      recordsToUpdate := []
      licenseConsumed := getLicenseConsumedBefore month hostMetrics 0 }
  bulkUpdate state.recordsToUpdate (table ++ state.recordsToCreate)

end Forail.HostMetrics
