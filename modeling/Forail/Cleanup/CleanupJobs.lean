import Forail.Cleanup.DeleteMeta

/-!
# The cleanup command

For each kind of jobs two passes run one after the other: the older one deletes jobs in
batches, with rules of its own for some kinds, and the newer one deletes jobs with the
partitions of their events.  Both count all jobs that they meet.
-/

namespace Forail.Cleanup

open Forail.UnifiedJobs

inductive Kind where
  | jobs
  | adHocCommands
  | projectUpdates
  | inventoryUpdates
  | managementJobs
  | workflowJobs
  | notifications
  deriving DecidableEq

namespace Kind

def modelNames : List Kind :=
  [jobs, adHocCommands, projectUpdates, inventoryUpdates, managementJobs, workflowJobs,
    notifications]

def jobClass : Kind → Option JobClass
  | jobs => some .job
  | adHocCommands => some .adHocCommand
  | projectUpdates => some .projectUpdate
  | inventoryUpdates => some .inventoryUpdate
  | managementJobs => some .systemJob
  | workflowJobs | notifications => none

def protects : Kind → JobRow → Bool
  | notifications, row => row.status = .pending
  | _, row => row.unfinished

def holdsBack : Kind → JobRow → Bool
  | projectUpdates, row | inventoryUpdates, row => row.inUse
  | _, _ => false

end Kind

structure Command where
  cutoff : Moment
  dryRun : Bool
  batchSize : ℤ

structure Counted where
  skipped : List ℕ
  deleted : List ℕ
  deriving DecidableEq

def Counted.add (first second : Counted) : Counted :=
  ⟨first.skipped ++ second.skipped, first.deleted ++ second.deleted⟩

def range (start stop step : ℤ) : Except String (List ℤ) :=
  if step = 0 then .error "ValueError"
  else
    let count := if 0 < step then (stop - start + step - 1) / step
      else (start - stop - step - 1) / -step
    .ok ((List.range count.toNat).map fun index : ℕ => start + step * (index : ℤ))

def pks (rows : List JobRow) : List ℕ := rows.map JobRow.pk

def deletePks (pkList : List ℕ) (table : JobTable) : JobTable :=
  { table with rows := table.rows.filter fun row => row.pk ∉ pkList }

def deleteUnpartitionedEvents (pkList : List ℕ) (table : JobTable) : JobTable :=
  match table.unpartitioned with
  | none => table
  | some events =>
      if pkList = [] then table
      else { table with unpartitioned := some (events.filter fun event => event.1 ∉ pkList) }

section Passes

variable (command : Command) (kind : Kind) (table : JobTable)

def batchDeleteByPks (pkList : List ℕ) : Except String JobTable := do
  let starts ← range 0 pkList.length command.batchSize
  return starts.foldl (fun table start =>
    deletePks ((pkList.drop start.toNat).take command.batchSize.toNat) table) table

/-! ## The first pass -/

def deletable (row : JobRow) : Bool :=
  decide (row.created.rank < command.cutoff.rank) && !(kind.protects row || kind.holdsBack row)

def cleanupRows : Except String (JobTable × Counted) := do
  let old := table.rows.filter fun row => row.created.rank < command.cutoff.rank
  let pkList := pks (old.filter fun row => !(kind.protects row || kind.holdsBack row))
  let table' ←
    if command.dryRun then .ok table
    else
      batchDeleteByPks command
        (if kind.jobClass.isSome then deleteUnpartitionedEvents pkList table else table) pkList
  let skipped := pks (old.filter fun row => kind.protects row || kind.holdsBack row) ++
    pks (table'.rows.filter fun row => command.cutoff.rank ≤ row.created.rank)
  return (table', ⟨skipped, pkList⟩)

/-- The jobs of a window of ids are deleted, and counted by the result of the deletion.
The list of their ids is a query that is evaluated after the deletion. -/
def cleanupWindow (state : JobTable × List ℕ) (start : ℤ) : Except String (JobTable × List ℕ) :=
  let inWindow (row : JobRow) : Bool :=
    deletable command .jobs row && decide (start ≤ row.pk ∧ row.pk ≤ start + command.batchSize)
  let results := pks (state.1.rows.filter inWindow)
  let table' := deletePks results state.1
  let pkList := pks (table'.rows.filter inWindow)
  if results = [] then .error "KeyError"
  else .ok (deleteUnpartitionedEvents pkList table', state.2 ++ results)

def cleanupJobs : Except String (JobTable × Counted) := do
  let skipped := pks (table.rows.filter fun row =>
    decide (command.cutoff.rank ≤ row.created.rank) || row.unfinished)
  let qs := pks (table.rows.filter fun row => deletable command .jobs row)
  if command.dryRun then return (table, ⟨skipped, qs⟩)
  else
    match qs.min?, qs.max? with
    | some low, some high =>
        let starts ← range low (high + 1) command.batchSize
        let (table', deleted) ← starts.foldlM (cleanupWindow command) (table, [])
        return (table', ⟨skipped, deleted⟩)
    | _, _ => return (table, ⟨skipped, []⟩)

def cleanupAdHocCommands := cleanupRows command .adHocCommands table

def cleanupProjectUpdates := cleanupRows command .projectUpdates table

def cleanupInventoryUpdates := cleanupRows command .inventoryUpdates table

def cleanupManagementJobs := cleanupRows command .managementJobs table

def cleanupWorkflowJobs := cleanupRows command .workflowJobs table

def cleanupNotifications := cleanupRows command .notifications table

def cleanupFirst : Except String (JobTable × Counted) :=
  match kind with
  | .jobs => cleanupJobs command table
  | .adHocCommands => cleanupAdHocCommands command table
  | .projectUpdates => cleanupProjectUpdates command table
  | .inventoryUpdates => cleanupInventoryUpdates command table
  | .managementJobs => cleanupManagementJobs command table
  | .workflowJobs => cleanupWorkflowJobs command table
  | .notifications => cleanupNotifications command table

/-! ## The second pass -/

def cleanupClass (jobClass : JobClass) : Except String (JobTable × Counted) := do
  let (table', skipped, deleted) ← delete jobClass command.cutoff command.dryRun table
  return (table', ⟨skipped, deleted⟩)

def cleanupWorkflowJobsPartition : JobTable × Counted :=
  (deleteJobs command.dryRun table (jobsPkList command.cutoff table),
    ⟨jobsNoDelete command.cutoff table, jobsPkList command.cutoff table⟩)

/-- The methods `cleanup_…_partition`; there is none for notifications. -/
def cleanupPartition : Except String (JobTable × Counted) :=
  match kind with
  | .notifications => return (table, ⟨[], []⟩)
  | .workflowJobs => return cleanupWorkflowJobsPartition command table
  | .jobs => cleanupClass command table .job
  | .adHocCommands => cleanupClass command table .adHocCommand
  | .projectUpdates => cleanupClass command table .projectUpdate
  | .inventoryUpdates => cleanupClass command table .inventoryUpdate
  | .managementJobs => cleanupClass command table .systemJob

end Passes

/-! ## The command -/

structure KindResult where
  kind : Kind
  table : JobTable
  counted : Counted
  deriving DecidableEq

def cleanupKind (command : Command) (kind : Kind) (table : JobTable) :
    Except String KindResult := do
  let (table', first) ← cleanupFirst command kind table
  let (table'', second) ← cleanupPartition command kind table'
  return ⟨kind, table'', first.add second⟩

def deleteUnpartitionedTable (command : Command) (result : KindResult) : KindResult :=
  match result.kind.jobClass, result.table.unpartitioned with
  | some _, some events =>
      if events.all fun event => decide (event.2.rank < command.cutoff.rank) then
        { result with table := { result.table with unpartitioned := none } }
      else result
  | _, _ => result

def modelsToCleanup (only : Kind → Bool) : List Kind :=
  if (Kind.modelNames.filter only).isEmpty then Kind.modelNames else Kind.modelNames.filter only

/-- `handle`.  Each kind has tables of its own, and an exception rolls back all of them. -/
def handle (command : Command) (only : Kind → Bool) (db : Kind → JobTable) :
    Except String (List KindResult) := do
  let results ← (modelsToCleanup only).mapM fun kind => cleanupKind command kind (db kind)
  if command.dryRun then return results
  else return results.map (deleteUnpartitionedTable command)

end Forail.Cleanup
