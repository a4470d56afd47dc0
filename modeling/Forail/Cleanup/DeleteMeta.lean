import Forail.Cleanup.PartitionNames
import Forail.Core.FallibleLoops
import Forail.Models.UnifiedJobs
import Mathlib.Data.List.AList
import Mathlib.Data.List.Dedup

/-!
# Cleanup by partitions

Old jobs of a class are deleted, and with them the partitions of their events.  A
partition goes when its hour has begun before the cutoff, unless an unfinished job from
before the cutoff was created in this hour.  Jobs that were created in the hour of the
cutoff, but after it, are not looked for.
-/

namespace Forail.Cleanup

open Forail.FallibleLoops Forail.UnifiedJobs

/-- A job.  `inUse` says that it is the current or the last update of a project or an
inventory source that has a source. -/
structure JobRow where
  pk : ℕ
  status : JobStatus
  created : Moment
  inUse : Bool
  deriving DecidableEq

structure Partition where
  hour : Hour
  events : List ℕ
  deriving DecidableEq

/-- The jobs of a class and their events.  The events from before the partitions have
their own table, as long as it was not dropped. -/
structure JobTable where
  rows : List JobRow
  partitions : List Partition
  unpartitioned : Option (List (ℕ × Moment))
  deriving DecidableEq

structure StoredTable extends JobTable where
  pk_unique : (rows.map JobRow.pk).Nodup
  events_by_hour : ∀ partition ∈ partitions, ∀ row ∈ rows, row.pk ∈ partition.events →
    row.created.hour = partition.hour

def JobRow.unfinished (row : JobRow) : Bool :=
  row.status ∈ [JobStatus.pending, JobStatus.waiting, JobStatus.running]

section Delete

variable (jobClass : JobClass) (cutoff : Moment) (dryRun : Bool) (table : JobTable)

def jobsQs : List JobRow := table.rows.filter fun row => row.created.rank < cutoff.rank

def jobsPkList : List ℕ := ((jobsQs cutoff table).filter fun row => !row.unfinished).map JobRow.pk

def jobsNoDelete : List ℕ :=
  (table.rows.filter fun row => decide (cutoff.rank ≤ row.created.rank) || row.unfinished).map
    JobRow.pk

def dropOfJob (partDrop : AList fun _ : String => Bool) (row : JobRow) :
    AList fun _ : String => Bool :=
  let partKey := partitionTableName jobClass row.created
  if row.unfinished then partDrop.insert partKey false
  else if partKey ∈ partDrop then partDrop
  else partDrop.insert partKey true

def identifyExcludedPartitions : List String :=
  let partDrop := (jobsQs cutoff table).foldl (dropOfJob jobClass) ∅
  partDrop.keys.filter fun key => partDrop.lookup key = some false

def selected (names : List String) : List String :=
  names.filter fun name =>
    (toTimestamp (ltrim name.toList
      (unifiedJobClassToEventTableName jobClass ++ "_").toList)).any fun hour =>
        decide (hour.start.rank < cutoff.rank)

def renamed (name : String) : Except String String := do
  match ← partitionNameDt name with
  | some hour => return dtToPartitionName (unifiedJobClassToEventTableName jobClass) hour
  | none => throw "AttributeError"

def Partition.name (partition : Partition) : String :=
  dtToPartitionName (unifiedJobClassToEventTableName jobClass) partition.hour

def findPartitionsToDrop : Except String (List String) := do
  let partitionsFromDb := selected jobClass cutoff (table.partitions.map (Partition.name jobClass))
  let partitionsMaybeDrop ← partitionsFromDb.mapM (renamed jobClass)
  return partitionsMaybeDrop.dedup.filter fun name =>
    name ∉ identifyExcludedPartitions jobClass cutoff table

def dropPartitions (partsToDrop : List String) : JobTable :=
  if dryRun then table
  else
    { table with
      partitions := table.partitions.filter fun partition => partition.name jobClass ∉ partsToDrop }

def deleteJobs (pkList : List ℕ) : JobTable :=
  if dryRun then table else { table with rows := table.rows.filter fun row => row.pk ∉ pkList }

def delete : Except String (JobTable × List ℕ × List ℕ) := do
  let partsToDrop ← findPartitionsToDrop jobClass cutoff table
  let dropped := dropPartitions jobClass dryRun table partsToDrop
  return (deleteJobs dryRun dropped (jobsPkList cutoff table), jobsNoDelete cutoff table,
    jobsPkList cutoff table)

end Delete

/-! ## The partitions that are dropped -/

variable {jobClass : JobClass} {cutoff : Moment} {dryRun : Bool} {table : JobTable}

theorem mem_jobsQs {row : JobRow} :
    row ∈ jobsQs cutoff table ↔ row ∈ table.rows ∧ row.created.rank < cutoff.rank := by
  rw [jobsQs, List.mem_filter, decide_eq_true_eq]

theorem mem_jobsPkList {pk : ℕ} :
    pk ∈ jobsPkList cutoff table ↔ ∃ row ∈ table.rows, row.created.rank < cutoff.rank ∧
      row.unfinished = false ∧ row.pk = pk := by
  simp only [jobsPkList, List.mem_map, List.mem_filter, mem_jobsQs, Bool.not_eq_true', and_assoc]

theorem lookup_foldl_dropOfJob (jobClass : JobClass) (rows : List JobRow)
    (partDrop : AList fun _ : String => Bool)
    (key : String) :
    (rows.foldl (dropOfJob jobClass) partDrop).lookup key = some false ↔
      partDrop.lookup key = some false ∨
        ∃ row ∈ rows, row.unfinished = true ∧ partitionTableName jobClass row.created = key := by
  induction rows generalizing partDrop with
  | nil => simp
  | cons row rows ih =>
    have hrow : (dropOfJob jobClass partDrop row).lookup key = some false ↔
        partDrop.lookup key = some false ∨
          (row.unfinished = true ∧ partitionTableName jobClass row.created = key) := by
      rw [dropOfJob]
      by_cases hkey : partitionTableName jobClass row.created = key
      · subst hkey
        split
        · next hunfinished => simp [hunfinished]
        · next hfinished =>
          split
          · simp [hfinished]
          · next hnew => simp [hfinished, AList.lookup_eq_none.mpr hnew]
      · split
        · rw [AList.lookup_insert_ne (Ne.symm hkey)]
          simp [hkey]
        · split
          · simp [hkey]
          · rw [AList.lookup_insert_ne (Ne.symm hkey)]
            simp [hkey]
    rw [List.foldl_cons, ih, hrow, or_assoc]
    simp only [List.mem_cons, exists_eq_or_imp]

theorem mem_identifyExcludedPartitions {key : String} :
    key ∈ identifyExcludedPartitions jobClass cutoff table ↔
      ∃ row ∈ table.rows, row.created.rank < cutoff.rank ∧ row.unfinished = true ∧
        partitionTableName jobClass row.created = key := by
  have hlookup := lookup_foldl_dropOfJob jobClass (jobsQs cutoff table) ∅ key
  rw [AList.lookup_empty, or_iff_right (Option.some_ne_none false).symm] at hlookup
  simp only [mem_jobsQs, and_assoc] at hlookup
  rw [← hlookup, identifyExcludedPartitions, List.mem_filter, decide_eq_true_eq]
  refine and_iff_right_of_imp fun hfalse => ?_
  exact AList.lookup_isSome.mp (Option.isSome_iff_exists.mpr ⟨false, hfalse⟩)

theorem renamed_partition (partition : Partition) :
    renamed jobClass (partition.name jobClass) = .ok (partition.name jobClass) := by
  rw [renamed, Partition.name, partitionNameDt_partition]
  rfl

theorem mem_selected {names : List Partition} {partition : Partition} :
    partition.name jobClass ∈ selected jobClass cutoff (names.map (Partition.name jobClass)) ↔
      partition.name jobClass ∈ names.map (Partition.name jobClass) ∧
        partition.hour.start.rank < cutoff.rank := by
  rw [selected, List.mem_filter, Partition.name, toTimestamp_partition, Option.any_some,
    decide_eq_true_eq]

/-- The partitions that go are those whose hour has begun before the cutoff, but for the
hours of the unfinished jobs from before the cutoff. -/
theorem findPartitionsToDrop_spec (jobClass : JobClass) (cutoff : Moment) (table : JobTable) :
    ∃ partsToDrop, findPartitionsToDrop jobClass cutoff table = .ok partsToDrop ∧
      ∀ partition ∈ table.partitions, partition.name jobClass ∈ partsToDrop ↔
        partition.hour.start.rank < cutoff.rank ∧
          ∀ row ∈ table.rows, row.created.rank < cutoff.rank → row.unfinished = true →
            row.created.hour ≠ partition.hour := by
  have hrenamed : ∀ name ∈ selected jobClass cutoff
      (table.partitions.map (Partition.name jobClass)), renamed jobClass name = .ok name := by
    intro name hname
    obtain ⟨partition, -, rfl⟩ := List.mem_map.mp (List.mem_filter.mp hname).1
    exact renamed_partition partition
  have hfound : findPartitionsToDrop jobClass cutoff table =
      .ok ((selected jobClass cutoff (table.partitions.map (Partition.name jobClass))).dedup.filter
        fun name => name ∉ identifyExcludedPartitions jobClass cutoff table) := by
    rw [findPartitionsToDrop, mapM_eq_ok hrenamed, List.map_id']
    rfl
  refine ⟨_, hfound, ?_⟩
  intro partition hpartition
  have hsame : ∀ row : JobRow, partitionTableName jobClass row.created = partition.name jobClass ↔
      row.created.hour = partition.hour := fun row =>
    (dtToPartitionName_injective (unifiedJobClassToEventTableName jobClass)).eq_iff
  rw [List.mem_filter, List.mem_dedup, mem_selected, decide_eq_true_eq,
    and_iff_right (List.mem_map_of_mem hpartition), mem_identifyExcludedPartitions]
  refine and_congr_right fun _ => ?_
  simp only [hsame, not_exists, not_and]

/-! ## Output that is kept -/

/-- No partition with events of a job that exists after the call is dropped, and the jobs
from the cutoff on and the unfinished ones exist after it. -/
structure KeepsOutput (cutoff : Moment) (table table' : JobTable) : Prop where
  output : ∀ partition ∈ table.partitions, ∀ row ∈ table'.rows, row.pk ∈ partition.events →
    partition ∈ table'.partitions
  rows : ∀ row ∈ table.rows, cutoff.rank ≤ row.created.rank ∨ row.unfinished = true →
    row ∈ table'.rows

theorem KeepsOutput.events {table' : JobTable} (hkeeps : KeepsOutput cutoff table table')
    {row : JobRow} (hrow : row ∈ table.rows)
    (hkept : cutoff.rank ≤ row.created.rank ∨ row.unfinished = true) {partition : Partition}
    (hpartition : partition ∈ table.partitions) (hevents : row.pk ∈ partition.events) :
    partition ∈ table'.partitions :=
  hkeeps.output partition hpartition row (hkeeps.rows row hrow hkept) hevents

/-- A job that was created in the hour of the cutoff, but not before the cutoff, and that
has events. -/
def LateInHour (cutoff : Moment) (table : JobTable) (row : JobRow) : Prop :=
  row.created.hour = cutoff.hour ∧ 0 < cutoff.within ∧ cutoff.rank ≤ row.created.rank ∧
    ∃ partition ∈ table.partitions, row.pk ∈ partition.events

def HourExcluded (cutoff : Moment) (table : JobTable) : Prop :=
  ∃ row ∈ table.rows, row.created.hour = cutoff.hour ∧ row.created.rank < cutoff.rank ∧
    row.unfinished = true

theorem delete_spec (jobClass : JobClass) (cutoff : Moment) (dryRun : Bool) (table : JobTable) :
    ∃ partsToDrop, findPartitionsToDrop jobClass cutoff table = .ok partsToDrop ∧
      delete jobClass cutoff dryRun table =
        .ok (deleteJobs dryRun (dropPartitions jobClass dryRun table partsToDrop)
          (jobsPkList cutoff table), jobsNoDelete cutoff table, jobsPkList cutoff table) := by
  obtain ⟨partsToDrop, hfound, -⟩ := findPartitionsToDrop_spec jobClass cutoff table
  refine ⟨partsToDrop, hfound, ?_⟩
  rw [delete, hfound]
  rfl

theorem StoredTable.row_eq (table : StoredTable) {row other : JobRow} (hrow : row ∈ table.rows)
    (hother : other ∈ table.rows) (hpk : row.pk = other.pk) : row = other :=
  List.inj_on_of_nodup_map table.pk_unique hrow hother hpk

theorem StoredTable.mem_jobsPkList_iff (table : StoredTable) {row : JobRow}
    (hrow : row ∈ table.rows) :
    row.pk ∈ jobsPkList cutoff table.toJobTable ↔
      row.created.rank < cutoff.rank ∧ row.unfinished = false := by
  rw [mem_jobsPkList]
  constructor
  · intro hdeleted
    obtain ⟨other, hother, hcreated, hfinished, hpk⟩ := hdeleted
    rw [table.row_eq hrow hother hpk.symm]
    exact ⟨hcreated, hfinished⟩
  · exact fun hold => ⟨row, hrow, hold.1, hold.2, rfl⟩

theorem keepsOutput_of_found (table : StoredTable) {partsToDrop : List String}
    (hfound : ∀ partition ∈ table.partitions, partition.name jobClass ∈ partsToDrop ↔
      partition.hour.start.rank < cutoff.rank ∧
        ∀ row ∈ table.rows, row.created.rank < cutoff.rank → row.unfinished = true →
          row.created.hour ≠ partition.hour)
    (hlate : ∀ row ∈ table.rows, LateInHour cutoff table.toJobTable row →
      HourExcluded cutoff table.toJobTable) :
    KeepsOutput cutoff table.toJobTable
      (deleteJobs false (dropPartitions jobClass false table.toJobTable partsToDrop)
        (jobsPkList cutoff table.toJobTable)) := by
  constructor
  · intro partition hpartition row hrow hevents
    obtain ⟨hrow, hkept⟩ := List.mem_filter.mp hrow
    have hhour := table.events_by_hour partition hpartition row hrow hevents
    refine List.mem_filter.mpr ⟨hpartition, decide_eq_true fun hdropped => ?_⟩
    obtain ⟨hbegun, hfinished⟩ := (hfound partition hpartition).mp hdropped
    rcases Nat.lt_or_ge row.created.rank cutoff.rank with hold | hnew
    · -- an old job that still exists is unfinished, so its hour is excluded
      refine of_decide_eq_true hkept ((table.mem_jobsPkList_iff hrow).mpr ⟨hold, ?_⟩)
      exact Bool.eq_false_iff.mpr fun hunfinished => hfinished row hrow hold hunfinished hhour
    · rw [← hhour] at hbegun
      have hsame := Moment.hour_eq_of_rank hnew hbegun
      have hwithin : 0 < cutoff.within := by
        rw [hsame, Moment.rank_start, Moment.rank] at hbegun
        omega
      obtain ⟨other, hother, hotherHour, hotherOld, hunfinished⟩ :=
        hlate row hrow ⟨hsame, hwithin, hnew, partition, hpartition, hevents⟩
      refine hfinished other hother hotherOld hunfinished ?_
      rw [hotherHour, ← hsame, hhour]
  · intro row hrow hkept
    refine List.mem_filter.mpr ⟨hrow, decide_eq_true fun hdeleted => ?_⟩
    obtain ⟨hold, hfinished⟩ := (table.mem_jobsPkList_iff hrow).mp hdeleted
    cases hkept with
    | inl hnew => exact absurd hold (Nat.not_lt_of_ge hnew)
    | inr hunfinished => exact Bool.false_ne_true (hfinished.symm.trans hunfinished)

/-- The output of the kept jobs is kept exactly when no kept job with events was created in
the hour of the cutoff, or an unfinished job from before the cutoff excludes this hour. -/
theorem keepsOutput_iff (jobClass : JobClass) (cutoff : Moment) (dryRun : Bool)
    (table : StoredTable) :
    (∃ table' counts, delete jobClass cutoff dryRun table.toJobTable = .ok (table', counts) ∧
      KeepsOutput cutoff table.toJobTable table') ↔
        dryRun = true ∨ ∀ row ∈ table.rows, LateInHour cutoff table.toJobTable row →
          HourExcluded cutoff table.toJobTable := by
  obtain ⟨partsToDrop, hfound, hdelete⟩ := delete_spec jobClass cutoff dryRun table.toJobTable
  obtain ⟨partsToDrop', hfound', hspec⟩ :=
    findPartitionsToDrop_spec jobClass cutoff table.toJobTable
  obtain rfl : partsToDrop = partsToDrop' := Except.ok.inj (hfound.symm.trans hfound')
  cases dryRun with
  | true =>
    refine iff_of_true ⟨table.toJobTable, _, hdelete, ?_, ?_⟩ (.inl rfl)
    · exact fun partition hpartition _ _ _ => hpartition
    · exact fun row hrow _ => hrow
  | false =>
    rw [or_iff_right Bool.false_ne_true]
    constructor
    · intro hkeeps row hrow hlate
      obtain ⟨table', counts, hdelete', hkeeps⟩ := hkeeps
      obtain ⟨rfl, -⟩ := Prod.mk.inj (Except.ok.inj (hdelete.symm.trans hdelete'))
      obtain ⟨hhour, hwithin, hnew, partition, hpartition, hevents⟩ := hlate
      by_contra hincluded
      have hpartitionHour := table.events_by_hour partition hpartition row hrow hevents
      have hdropped : partition.name jobClass ∈ partsToDrop := by
        refine (hspec partition hpartition).mpr ⟨?_, ?_⟩
        · rw [← hpartitionHour, hhour, Moment.rank_start, Moment.rank]
          omega
        · intro other hother hold hunfinished hsame
          exact hincluded ⟨other, hother, hsame.trans (hpartitionHour.symm.trans hhour), hold,
            hunfinished⟩
      have hexists := hkeeps.rows row hrow (.inl hnew)
      have hkept := hkeeps.output partition hpartition row hexists hevents
      exact of_decide_eq_true (List.mem_filter.mp hkept).2 hdropped
    · intro hlate
      exact ⟨_, _, hdelete, keepsOutput_of_found table hspec hlate⟩

/-! ## A job after the cutoff -/

def cutoffHour : Hour := ⟨2026, 3, 18, 9, by decide⟩

def halfPast : Moment := ⟨cutoffHour, 1800000000, by decide⟩

def halfPastTable : StoredTable where
  rows := [⟨1, .successful, ⟨cutoffHour, 600000000, by decide⟩, false⟩,
    ⟨2, .successful, ⟨cutoffHour, 2700000000, by decide⟩, false⟩]
  partitions := [⟨cutoffHour, [1, 2]⟩]
  unpartitioned := none
  pk_unique := by decide
  events_by_hour := by decide

theorem output_dropped :
    ¬ ∀ (jobClass : JobClass) (cutoff : Moment) (dryRun : Bool) (table : StoredTable),
      ∃ table' counts, delete jobClass cutoff dryRun table.toJobTable = .ok (table', counts) ∧
        KeepsOutput cutoff table.toJobTable table' := by
  intro hclaim
  obtain ⟨table', counts, hdelete, hkeeps⟩ := hclaim .job halfPast false halfPastTable
  have hdropped : (delete .job halfPast false halfPastTable.toJobTable).toOption.map
      (fun result => result.1.partitions) = some [] := by decide +kernel
  rw [hdelete] at hdropped
  have hnone : table'.partitions = [] := Option.some.inj hdropped
  have hlate : ⟨2, .successful, ⟨cutoffHour, 2700000000, by decide⟩, false⟩ ∈ halfPastTable.rows :=
    List.mem_cons_of_mem _ List.mem_cons_self
  have hkept := hkeeps.events hlate (.inl (by decide +kernel)) List.mem_cons_self (by decide)
  rw [hnone] at hkept
  exact List.not_mem_nil hkept

end Forail.Cleanup
