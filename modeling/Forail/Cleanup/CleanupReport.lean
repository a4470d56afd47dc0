import Forail.Cleanup.CleanupJobs

/-!
# The report of the cleanup

The counts of the two passes over a kind are added up, so that each job is counted twice,
by a dry run in all cases.  Only notifications have a single pass.
-/

namespace Forail.Cleanup

open Forail.FallibleLoops Forail.UnifiedJobs

/-! ## Batches -/

section Batches

variable {command : Command} {pkList : List ℕ} {table : JobTable}

theorem deletePks_nil (table : JobTable) : deletePks [] table = table := by
  simp [deletePks]

theorem deletePks_append (first second : List ℕ) (table : JobTable) :
    deletePks second (deletePks first table) = deletePks (first ++ second) table := by
  simp [deletePks, List.filter_filter, not_or, Bool.and_comm]

theorem foldl_deletePks {Batch : Type} (batch : Batch → List ℕ) (batches : List Batch)
    (table : JobTable) :
    batches.foldl (fun table item => deletePks (batch item) table) table =
      deletePks (batches.flatMap batch) table := by
  induction batches generalizing table with
  | nil => exact (deletePks_nil table).symm
  | cons item batches ih => rw [List.foldl_cons, ih, deletePks_append, List.flatMap_cons]

theorem deletePks_congr {first second : List ℕ} (hsame : ∀ pk, pk ∈ first ↔ pk ∈ second)
    (table : JobTable) : deletePks first table = deletePks second table := by
  simp only [deletePks, hsame]

theorem mem_batches {size : ℤ} (hsize : 0 < size) {starts : List ℤ}
    (hstarts : range 0 pkList.length size = .ok starts) (pk : ℕ) :
    pk ∈ starts.flatMap (fun start => (pkList.drop start.toNat).take size.toNat) ↔
      pk ∈ pkList := by
  rw [range, if_neg (ne_of_gt hsize), if_pos hsize] at hstarts
  obtain rfl := Except.ok.inj hstarts
  constructor
  · intro hmem
    obtain ⟨start, -, hmem⟩ := List.mem_flatMap.mp hmem
    exact List.mem_of_mem_drop (List.mem_of_mem_take hmem)
  · intro hmem
    obtain ⟨index, hindex, rfl⟩ := List.mem_iff_getElem.mp hmem
    obtain ⟨width, rfl⟩ : ∃ width : ℕ, size = width := ⟨size.toNat, by omega⟩
    have hwidth : 0 < width := by omega
    have hsplit := Nat.mod_add_div index width
    have hwithin := Nat.mod_lt index hwidth
    have hcount : index / width < (((pkList.length : ℤ) - 0 + width - 1) / width).toNat := by
      have hceil : ((index / width : ℕ) : ℤ) + 1 ≤
          ((pkList.length : ℤ) - 0 + width - 1) / width := by
        rw [Int.le_ediv_iff_mul_le (by omega)]
        have hcast : ((index / width : ℕ) : ℤ) * width + ((index % width : ℕ) : ℤ) = index := by
          rw [← Nat.cast_mul, ← Nat.cast_add, Nat.cast_inj, mul_comm, add_comm]
          exact hsplit
        rw [add_mul, one_mul]
        omega
      omega
    refine List.mem_flatMap.mpr
      ⟨_, List.mem_map.mpr ⟨index / width, List.mem_range.mpr hcount, rfl⟩, ?_⟩
    have hstart : (0 + (width : ℤ) * ((index / width : ℕ) : ℤ)).toNat =
        width * (index / width) := by
      rw [zero_add, ← Nat.cast_mul, Int.toNat_natCast]
    rw [hstart, Int.toNat_natCast]
    refine List.mem_iff_getElem.mpr ⟨index % width, ?_, ?_⟩
    · rw [List.length_take, List.length_drop]
      omega
    · rw [List.getElem_take, List.getElem_drop]
      congr 1
      omega

theorem batchDeleteByPks_pos (hsize : 0 < command.batchSize) (table : JobTable)
    (pkList : List ℕ) :
    batchDeleteByPks command table pkList = .ok (deletePks pkList table) := by
  obtain ⟨starts, hstarts⟩ : ∃ starts, range 0 pkList.length command.batchSize = .ok starts := by
    rw [range, if_neg (ne_of_gt hsize)]
    exact ⟨_, rfl⟩
  rw [batchDeleteByPks, hstarts]
  change Except.ok _ = _
  rw [foldl_deletePks, deletePks_congr (mem_batches hsize hstarts)]

theorem batchDeleteByPks_neg (hsize : command.batchSize < 0) (table : JobTable)
    (pkList : List ℕ) : batchDeleteByPks command table pkList = .ok table := by
  have hstarts : range 0 pkList.length command.batchSize = .ok [] := by
    rw [range, if_neg (ne_of_lt hsize), if_neg (not_lt_of_gt hsize)]
    have hcount : (0 - (pkList.length : ℤ) - command.batchSize - 1) / -command.batchSize < 1 := by
      rw [Int.ediv_lt_iff_lt_mul (by omega)]
      omega
    have hnone : ((0 - (pkList.length : ℤ) - command.batchSize - 1) /
        -command.batchSize).toNat = 0 := by
      omega
    simp only [hnone]
    rfl
  rw [batchDeleteByPks, hstarts]
  rfl

theorem batchDeleteByPks_zero (hsize : command.batchSize = 0) (table : JobTable)
    (pkList : List ℕ) : batchDeleteByPks command table pkList = .error "ValueError" := by
  rw [batchDeleteByPks, range, if_pos hsize]
  rfl

end Batches

/-! ## Counts -/

def CountsOnce (table : JobTable) (counted : Counted) : Prop :=
  (counted.skipped ++ counted.deleted).Perm (pks table.rows)

theorem CountsOnce.length {table : JobTable} {counted : Counted}
    (honce : CountsOnce table counted) :
    counted.skipped.length + counted.deleted.length = table.rows.length := by
  rw [← List.length_append, List.Perm.length_eq honce, pks, List.length_map]

theorem length_add (first second : Counted) :
    (first.add second).skipped.length + (first.add second).deleted.length =
      first.skipped.length + first.deleted.length +
        (second.skipped.length + second.deleted.length) := by
  rw [Counted.add, List.length_append, List.length_append]
  omega

theorem countsOnce_filter (table : JobTable) (skips : JobRow → Bool) :
    CountsOnce table ⟨pks (table.rows.filter skips),
      pks (table.rows.filter fun row => !skips row)⟩ := by
  rw [CountsOnce, pks, pks, ← List.map_append]
  exact (List.filter_append_perm skips table.rows).map JobRow.pk

section Passes

variable {command : Command} {kind : Kind} {table : JobTable}

def countedRows (cutoff : Moment) (kind : Kind) (table : JobTable) : Counted where
  skipped := pks ((table.rows.filter fun row => row.created.rank < cutoff.rank).filter
      fun row => kind.protects row || kind.holdsBack row) ++
    pks (table.rows.filter fun row => cutoff.rank ≤ row.created.rank)
  deleted := pks ((table.rows.filter fun row => row.created.rank < cutoff.rank).filter
    fun row => !(kind.protects row || kind.holdsBack row))

theorem countsOnce_countedRows (cutoff : Moment) (kind : Kind) (table : JobTable) :
    CountsOnce table (countedRows cutoff kind table) := by
  have hold : (table.rows.filter fun row => row.created.rank < cutoff.rank) ++
      (table.rows.filter fun row => cutoff.rank ≤ row.created.rank) |>.Perm table.rows := by
    have hsplit := List.filter_append_perm
      (fun row : JobRow => row.created.rank < cutoff.rank) table.rows
    simpa only [← decide_not, Nat.not_lt] using hsplit
  have hheld := List.filter_append_perm (fun row => kind.protects row || kind.holdsBack row)
    (table.rows.filter fun row => row.created.rank < cutoff.rank)
  rw [CountsOnce, countedRows, pks, pks, pks, ← List.map_append, ← List.map_append]
  refine List.Perm.map JobRow.pk (.trans ?_ hold)
  rw [List.append_assoc]
  refine (List.Perm.append_left _ List.perm_append_comm).trans ?_
  rw [← List.append_assoc]
  exact hheld.append_right _

theorem old_finished (cutoff : Moment) (row : JobRow) :
    (decide (row.created.rank < cutoff.rank) && !row.unfinished) =
      !(decide (cutoff.rank ≤ row.created.rank) || row.unfinished) := by
  simp only [Bool.not_or, ← decide_not, Nat.not_le]

theorem cleanupRows_dry (hdry : command.dryRun = true) (kind : Kind) (table : JobTable) :
    cleanupRows command kind table = .ok (table, countedRows command.cutoff kind table) := by
  rw [cleanupRows, if_pos hdry]
  rfl

theorem cleanupFirst_dry (hdry : command.dryRun = true) (kind : Kind) (table : JobTable) :
    ∃ counted, cleanupFirst command kind table = .ok (table, counted) ∧
      CountsOnce table counted := by
  have hrows : ∀ kind, ∃ counted, cleanupRows command kind table = .ok (table, counted) ∧
      CountsOnce table counted := fun kind =>
    ⟨_, cleanupRows_dry hdry kind table, countsOnce_countedRows command.cutoff kind table⟩
  cases kind with
  | jobs =>
    refine ⟨_, ?_, countsOnce_filter table fun row =>
      decide (command.cutoff.rank ≤ row.created.rank) || row.unfinished⟩
    rw [cleanupFirst, cleanupJobs, if_pos hdry]
    have hqs : deletable command .jobs = fun row =>
        !(decide (command.cutoff.rank ≤ row.created.rank) || row.unfinished) := by
      funext row
      change (_ && !(row.unfinished || false)) = _
      rw [Bool.or_false, old_finished]
    simp only [hqs]
    rfl
  | adHocCommands => exact hrows _
  | projectUpdates => exact hrows _
  | inventoryUpdates => exact hrows _
  | managementJobs => exact hrows _
  | workflowJobs => exact hrows _
  | notifications => exact hrows _

theorem countsOnce_found (cutoff : Moment) (table : JobTable) :
    CountsOnce table ⟨jobsNoDelete cutoff table, jobsPkList cutoff table⟩ := by
  have hfinished : jobsPkList cutoff table = pks (table.rows.filter fun row =>
      !(decide (cutoff.rank ≤ row.created.rank) || row.unfinished)) := by
    rw [jobsPkList, jobsQs, List.filter_filter, pks]
    congr 2
    funext row
    rw [Bool.and_comm, old_finished]
  rw [hfinished]
  exact countsOnce_filter table _

theorem cleanupPartition_spec (hkind : kind ≠ .notifications) (command : Command)
    (table : JobTable) :
    ∃ table' counted, cleanupPartition command kind table = .ok (table', counted) ∧
      CountsOnce table counted ∧ (command.dryRun = true → table' = table) := by
  have hclass : ∀ jobClass, ∃ table' counted, cleanupClass command table jobClass =
      .ok (table', counted) ∧ CountsOnce table counted ∧
        (command.dryRun = true → table' = table) := by
    intro jobClass
    obtain ⟨partsToDrop, -, hdelete⟩ := delete_spec jobClass command.cutoff command.dryRun table
    have hclean : cleanupClass command table jobClass =
        .ok (deleteJobs command.dryRun (dropPartitions jobClass command.dryRun table partsToDrop)
          (jobsPkList command.cutoff table),
          ⟨jobsNoDelete command.cutoff table, jobsPkList command.cutoff table⟩) := by
      rw [cleanupClass, hdelete]
      rfl
    refine ⟨_, _, hclean, countsOnce_found command.cutoff table, fun hdry => ?_⟩
    rw [deleteJobs, if_pos hdry, dropPartitions, if_pos hdry]
  cases kind with
  | notifications => exact absurd rfl hkind
  | workflowJobs =>
    exact ⟨_, _, rfl, countsOnce_found command.cutoff table, fun hdry => if_pos hdry⟩
  | jobs => exact hclass _
  | adHocCommands => exact hclass _
  | projectUpdates => exact hclass _
  | inventoryUpdates => exact hclass _
  | managementJobs => exact hclass _

theorem cleanupKind_eq {table' table'' : JobTable} {first second : Counted}
    (hfirst : cleanupFirst command kind table = .ok (table', first))
    (hsecond : cleanupPartition command kind table' = .ok (table'', second)) :
    cleanupKind command kind table = .ok ⟨kind, table'', first.add second⟩ := by
  rw [cleanupKind, hfirst]
  change (cleanupPartition command kind table').bind _ = _
  rw [hsecond]
  rfl

theorem cleanupKind_cases {result : KindResult}
    (hkind : cleanupKind command kind table = .ok result) :
    ∃ table' first second, cleanupFirst command kind table = .ok (table', first) ∧
      cleanupPartition command kind table' = .ok (result.table, second) ∧
      result.kind = kind ∧ result.counted = first.add second := by
  obtain ⟨⟨table', first⟩, hfirst, hrest⟩ := bind_eq_ok hkind
  obtain ⟨⟨table'', second⟩, hsecond, hresult⟩ := bind_eq_ok hrest
  obtain rfl := Except.ok.inj hresult
  exact ⟨table', first, second, hfirst, hsecond, rfl, rfl⟩

theorem cleanupKind_dry (hdry : command.dryRun = true) (kind : Kind) (table : JobTable) :
    ∃ first second, cleanupKind command kind table = .ok ⟨kind, table, first.add second⟩ ∧
      CountsOnce table first ∧ (kind ≠ .notifications → CountsOnce table second) := by
  obtain ⟨first, hfirst, honce⟩ := cleanupFirst_dry hdry kind table
  by_cases hkind : kind = .notifications
  · subst hkind
    exact ⟨first, ⟨[], []⟩, cleanupKind_eq hfirst rfl, honce, fun hkind => absurd rfl hkind⟩
  · obtain ⟨table', second, hsecond, hagain, hsame⟩ := cleanupPartition_spec hkind command table
    rw [hsame hdry] at hsecond
    exact ⟨first, second, cleanupKind_eq hfirst hsecond, honce, fun _ => hagain⟩

end Passes

/-! ## Reports that can be trusted -/

/-- The tables of all kinds.  Workflow jobs and notifications have no events. -/
structure Database where
  tables : Kind → StoredTable
  no_events : ∀ kind, kind.jobClass = none →
    (tables kind).partitions = [] ∧ (tables kind).unpartitioned = none

/-- The jobs that were reported as skipped exist, those that were reported as deleted are
gone with their events, and each job was counted once. -/
structure Reported (table : JobTable) (result : KindResult) : Prop where
  skipped : ∀ pk ∈ result.counted.skipped, pk ∈ pks result.table.rows
  deleted : ∀ pk ∈ result.counted.deleted, pk ∉ pks result.table.rows
  partitioned : ∀ pk ∈ result.counted.deleted, ∀ partition ∈ result.table.partitions,
    pk ∉ partition.events
  unpartitioned : ∀ pk ∈ result.counted.deleted, ∀ events,
    result.table.unpartitioned = some events → pk ∉ events.map Prod.fst
  once : CountsOnce table result.counted

def KindResult.counts (result : KindResult) : Kind × ℕ × ℕ :=
  (result.kind, result.counted.deleted.length, result.counted.skipped.length)

def Honest (cutoff : Moment) (batchSize : ℤ) (only : Kind → Bool) (db : Database) : Prop :=
  ∃ results dryResults,
    handle ⟨cutoff, false, batchSize⟩ only (fun kind => (db.tables kind).toJobTable) =
      .ok results ∧
    handle ⟨cutoff, true, batchSize⟩ only (fun kind => (db.tables kind).toJobTable) =
      .ok dryResults ∧
    (∀ result ∈ results, Reported (db.tables result.kind).toJobTable result) ∧
    (∀ result ∈ dryResults, result.table = (db.tables result.kind).toJobTable) ∧
    dryResults.map KindResult.counts = results.map KindResult.counts

/-- There is nothing to count twice, and the batches of the first pass exist. -/
def Countable (cutoff : Moment) (batchSize : ℤ) (kind : Kind) (table : JobTable) : Prop :=
  (kind ≠ .notifications → table.rows = []) ∧ (kind ≠ .jobs → batchSize ≠ 0) ∧
    (kind = .notifications → batchSize < 0 →
      ∀ row ∈ table.rows, row.created.rank < cutoff.rank → row.status = .pending)

section Kinds

variable {command : Command} {cutoff : Moment} {batchSize : ℤ} {kind : Kind}

theorem cleanupRows_real {table table' : JobTable} (hreal : command.dryRun = false)
    (hbatch : batchDeleteByPks command
      (if kind.jobClass.isSome then
        deleteUnpartitionedEvents (countedRows command.cutoff kind table).deleted table
      else table) (countedRows command.cutoff kind table).deleted = .ok table')
    (hnew : (table'.rows.filter fun row => command.cutoff.rank ≤ row.created.rank) =
      table.rows.filter fun row => command.cutoff.rank ≤ row.created.rank) :
    cleanupRows command kind table = .ok (table', countedRows command.cutoff kind table) := by
  have hnot : ¬ command.dryRun = true := ne_true_of_eq_false hreal
  let counted (table' : JobTable) : JobTable × Counted :=
    (table', ⟨pks ((table.rows.filter fun row => row.created.rank < command.cutoff.rank).filter
        fun row => kind.protects row || kind.holdsBack row) ++
      pks (table'.rows.filter fun row => command.cutoff.rank ≤ row.created.rank),
      (countedRows command.cutoff kind table).deleted⟩)
  have hloop : cleanupRows command kind table = (batchDeleteByPks command
      (if kind.jobClass.isSome then
        deleteUnpartitionedEvents (countedRows command.cutoff kind table).deleted table
      else table) (countedRows command.cutoff kind table).deleted).bind
        fun table' => .ok (counted table') := by
    rw [cleanupRows, if_neg hnot]
    rfl
  rw [hloop, hbatch]
  change Except.ok (counted table') = _
  simp only [counted, hnew]
  rfl

theorem filter_deletePks (table : StoredTable) (cutoff : Moment) (kind : Kind) :
    ((deletePks (countedRows cutoff kind table.toJobTable).deleted table.toJobTable).rows.filter
      fun row => cutoff.rank ≤ row.created.rank) =
      table.rows.filter fun row => cutoff.rank ≤ row.created.rank := by
  rw [deletePks, List.filter_filter]
  apply List.filter_congr
  intro row hrow
  rw [Bool.and_eq_left_iff_imp]
  intro hnew
  refine decide_eq_true fun hdeleted => ?_
  obtain ⟨other, hother, hpk⟩ := List.mem_map.mp hdeleted
  obtain ⟨hother, hold⟩ := List.mem_filter.mp (List.mem_filter.mp hother).1
  rw [table.row_eq hother hrow hpk] at hold
  exact absurd (of_decide_eq_true hold) (Nat.not_lt_of_ge (of_decide_eq_true hnew))

theorem cleanupNotifications_pos (hreal : command.dryRun = false) (hsize : 0 < command.batchSize)
    (table : StoredTable) :
    cleanupFirst command .notifications table.toJobTable =
      .ok (deletePks (countedRows command.cutoff .notifications table.toJobTable).deleted
        table.toJobTable, countedRows command.cutoff .notifications table.toJobTable) :=
  cleanupRows_real hreal (batchDeleteByPks_pos hsize _ _)
    (filter_deletePks table command.cutoff .notifications)

theorem cleanupNotifications_neg (hreal : command.dryRun = false) (hsize : command.batchSize < 0)
    (table : JobTable) :
    cleanupFirst command .notifications table =
      .ok (table, countedRows command.cutoff .notifications table) :=
  cleanupRows_real hreal (batchDeleteByPks_neg hsize _ _) rfl

theorem cleanupFirst_zero (hreal : command.dryRun = false) (hsize : command.batchSize = 0)
    (hkind : kind ≠ .jobs) (table : JobTable) :
    cleanupFirst command kind table = .error "ValueError" := by
  have hnot : ¬ command.dryRun = true := ne_true_of_eq_false hreal
  have hrows : ∀ kind, cleanupRows command kind table = .error "ValueError" := by
    intro kind
    rw [cleanupRows, if_neg hnot]
    change (batchDeleteByPks _ _ _).bind _ = _
    rw [batchDeleteByPks_zero hsize]
    rfl
  cases kind with
  | jobs => exact absurd rfl hkind
  | adHocCommands => exact hrows _
  | projectUpdates => exact hrows _
  | inventoryUpdates => exact hrows _
  | managementJobs => exact hrows _
  | workflowJobs => exact hrows _
  | notifications => exact hrows _

theorem CountsOnce.eq_nil {table : JobTable} {counted : Counted}
    (honce : CountsOnce table counted) (hrows : table.rows = []) : counted = ⟨[], []⟩ := by
  have hlength := honce.length
  rw [hrows, List.length_nil] at hlength
  obtain ⟨hskipped, hdeleted⟩ := Nat.add_eq_zero_iff.mp hlength
  cases counted with
  | mk skipped deleted =>
    rw [Counted.mk.injEq]
    exact ⟨List.length_eq_zero_iff.mp hskipped, List.length_eq_zero_iff.mp hdeleted⟩

theorem cleanupFirst_nil {table : JobTable} (hreal : command.dryRun = false)
    (hrows : table.rows = []) (hsize : kind ≠ .jobs → command.batchSize ≠ 0) :
    ∃ table', cleanupFirst command kind table = .ok (table', ⟨[], []⟩) ∧ table'.rows = [] := by
  have hbatches : ∀ kind, command.batchSize ≠ 0 →
      ∃ table', cleanupRows command kind table = .ok (table', ⟨[], []⟩) ∧ table'.rows = [] := by
    intro kind hsize
    have hcounted := (countsOnce_countedRows command.cutoff kind table).eq_nil hrows
    have hkept : ∀ pkList, (deleteUnpartitionedEvents pkList table).rows = [] := by
      intro pkList
      rw [deleteUnpartitionedEvents.eq_def]
      split
      · exact hrows
      · split
        · exact hrows
        · exact hrows
    have hstart : (if kind.jobClass.isSome then
        deleteUnpartitionedEvents (countedRows command.cutoff kind table).deleted table
      else table).rows = [] := by
      split
      · exact hkept _
      · exact hrows
    rw [← hcounted]
    rcases Int.lt_or_gt_of_ne hsize with hneg | hpos
    · refine ⟨_, cleanupRows_real hreal (batchDeleteByPks_neg hneg _ _) ?_, hstart⟩
      rw [hstart, hrows]
    · have hdeleted : ∀ pkList table, JobTable.rows table = [] →
          (deletePks pkList table).rows = [] := by
        intro pkList table hrows
        rw [deletePks, hrows, List.filter_nil]
      refine ⟨_, cleanupRows_real hreal (batchDeleteByPks_pos hpos _ _) ?_, hdeleted _ _ hstart⟩
      rw [hdeleted _ _ hstart, hrows]
  cases kind with
  | jobs =>
    refine ⟨table, ?_, hrows⟩
    rw [cleanupFirst, cleanupJobs, if_neg (ne_true_of_eq_false hreal)]
    simp only [hrows, List.filter_nil, pks, List.map_nil]
    rfl
  | adHocCommands => exact hbatches _ (hsize nofun)
  | projectUpdates => exact hbatches _ (hsize nofun)
  | inventoryUpdates => exact hbatches _ (hsize nofun)
  | managementJobs => exact hbatches _ (hsize nofun)
  | workflowJobs => exact hbatches _ (hsize nofun)
  | notifications => exact hbatches _ (hsize nofun)

theorem lengths_of_counts {result other : KindResult} (hcounts : result.counts = other.counts) :
    result.counted.skipped.length + result.counted.deleted.length =
      other.counted.skipped.length + other.counted.deleted.length := by
  obtain ⟨-, hlengths⟩ := Prod.mk.inj hcounts
  obtain ⟨hdeleted, hskipped⟩ := Prod.mk.inj hlengths
  rw [hdeleted, hskipped]

theorem countable_of_reported {table : JobTable} {result dryResult : KindResult}
    (hreal : cleanupKind ⟨cutoff, false, batchSize⟩ kind table = .ok result)
    (hdry : cleanupKind ⟨cutoff, true, batchSize⟩ kind table = .ok dryResult)
    (honce : CountsOnce table result.counted)
    (hdeleted : ∀ pk ∈ result.counted.deleted, pk ∉ pks result.table.rows)
    (hcounts : dryResult.counts = result.counts) : Countable cutoff batchSize kind table := by
  obtain ⟨table', first, second, hfirst, hsecond, -, hsum⟩ := cleanupKind_cases hreal
  refine ⟨fun hkind => ?_, fun hkind hzero => ?_, fun hkind hneg row hrow hold => ?_⟩
  · obtain ⟨dryFirst, drySecond, hdryRun, hdryFirst, hdrySecond⟩ :=
      @cleanupKind_dry ⟨cutoff, true, batchSize⟩ rfl kind table
    obtain rfl := Except.ok.inj (hdryRun.symm.trans hdry)
    have hlengths := lengths_of_counts hcounts
    rw [length_add, hdryFirst.length, (hdrySecond hkind).length, honce.length] at hlengths
    exact List.length_eq_zero_iff.mp (by omega)
  · have hfailed := @cleanupFirst_zero ⟨cutoff, false, batchSize⟩ kind rfl hzero hkind table
    exact error_ne_ok (hfailed.symm.trans hfirst)
  · subst hkind
    have hpass := @cleanupNotifications_neg ⟨cutoff, false, batchSize⟩ rfl hneg table
    obtain ⟨rfl, rfl⟩ := Prod.mk.inj (Except.ok.inj (hpass.symm.trans hfirst))
    obtain ⟨htable, -⟩ := Prod.mk.inj (Except.ok.inj hsecond)
    by_contra hstatus
    refine hdeleted row.pk ?_ (htable ▸ List.mem_map_of_mem hrow)
    rw [hsum]
    refine List.mem_append_left _ (List.mem_map_of_mem (List.mem_filter.mpr
      ⟨List.mem_filter.mpr ⟨hrow, decide_eq_true hold⟩, ?_⟩))
    simp [Kind.protects, Kind.holdsBack, hstatus]

theorem reported_nil {table : JobTable} {result : KindResult}
    (hcounted : result.counted = ⟨[], []⟩) (hrows : table.rows = []) : Reported table result := by
  have hdeleted : ∀ pk, pk ∉ result.counted.deleted := by
    intro pk
    rw [hcounted]
    exact List.not_mem_nil
  refine ⟨fun pk hpk => ?_, fun pk hpk => absurd hpk (hdeleted pk),
    fun pk hpk => absurd hpk (hdeleted pk), fun pk hpk => absurd hpk (hdeleted pk), ?_⟩
  · rw [hcounted] at hpk
    exact absurd hpk List.not_mem_nil
  · rw [CountsOnce, hcounted, hrows]
    exact List.Perm.nil

theorem reported_notifications {table : StoredTable} {result : KindResult}
    (hcounted : result.counted = countedRows cutoff .notifications table.toJobTable)
    (hrows : result.table.rows =
      (deletePks (countedRows cutoff .notifications table.toJobTable).deleted
        table.toJobTable).rows)
    (hpartitions : result.table.partitions = [])
    (hunpartitioned : result.table.unpartitioned = none) :
    Reported table.toJobTable result := by
  have honce := countsOnce_countedRows cutoff .notifications table.toJobTable
  rw [← hcounted] at honce hrows
  have hnodup : (result.counted.skipped ++ result.counted.deleted).Nodup :=
    honce.nodup_iff.mpr table.pk_unique
  refine ⟨fun pk hpk => ?_, fun pk hpk hexists => ?_, fun pk _ partition hpartition => ?_,
    fun pk _ events hevents => ?_, honce⟩
  · obtain ⟨row, hrow, rfl⟩ := List.mem_map.mp (honce.subset (List.mem_append_left _ hpk))
    rw [hrows]
    refine List.mem_map_of_mem (List.mem_filter.mpr ⟨hrow, decide_eq_true fun hdeleted => ?_⟩)
    exact (List.nodup_append.mp hnodup).2.2 _ hpk _ hdeleted rfl
  · rw [hrows] at hexists
    obtain ⟨row, hrow, rfl⟩ := List.mem_map.mp hexists
    exact of_decide_eq_true (List.mem_filter.mp hrow).2 hpk
  · rw [hpartitions] at hpartition
    exact absurd hpartition List.not_mem_nil
  · rw [hunpartitioned] at hevents
    exact absurd hevents.symm (Option.some_ne_none _)

theorem reported_of_countable {table : StoredTable}
    (hevents : kind.jobClass = none → table.partitions = [] ∧ table.unpartitioned = none)
    (hcountable : Countable cutoff batchSize kind table.toJobTable) :
    ∃ result dryResult,
      cleanupKind ⟨cutoff, false, batchSize⟩ kind table.toJobTable = .ok result ∧
      cleanupKind ⟨cutoff, true, batchSize⟩ kind table.toJobTable = .ok dryResult ∧
      Reported table.toJobTable result ∧ dryResult.table = table.toJobTable ∧
      dryResult.counts = result.counts := by
  obtain ⟨hrows, hsize, hnotifications⟩ := hcountable
  by_cases hkind : kind = .notifications
  · subst hkind
    obtain ⟨hpartitions, hunpartitioned⟩ := hevents rfl
    have hdryFirst : cleanupFirst ⟨cutoff, true, batchSize⟩ .notifications table.toJobTable =
        .ok (table.toJobTable, countedRows cutoff .notifications table.toJobTable) :=
      @cleanupRows_dry ⟨cutoff, true, batchSize⟩ rfl .notifications table.toJobTable
    have hdry := cleanupKind_eq hdryFirst rfl
    have hnone : ∀ counted : Counted, counted.add ⟨[], []⟩ = counted := fun counted => by
      rw [Counted.add, List.append_nil, List.append_nil]
    rcases Int.lt_or_gt_of_ne (hsize nofun) with hneg | hpos
    · have hpass := @cleanupNotifications_neg ⟨cutoff, false, batchSize⟩ rfl hneg
        table.toJobTable
      have hempty : (countedRows cutoff .notifications table.toJobTable).deleted = [] := by
        refine List.map_eq_nil_iff.mpr (List.filter_eq_nil_iff.mpr fun row hrow => ?_)
        obtain ⟨hrow, hold⟩ := List.mem_filter.mp hrow
        have hpending := hnotifications rfl hneg row hrow (of_decide_eq_true hold)
        simp [Kind.protects, hpending]
      refine ⟨_, _, cleanupKind_eq hpass rfl, hdry, ?_, rfl, rfl⟩
      refine reported_notifications (hnone _) ?_ hpartitions hunpartitioned
      rw [hempty, deletePks_nil]
    · have hpass := @cleanupNotifications_pos ⟨cutoff, false, batchSize⟩ rfl hpos table
      refine ⟨_, _, cleanupKind_eq hpass rfl, hdry, ?_, rfl, rfl⟩
      exact reported_notifications (hnone _) rfl hpartitions hunpartitioned
  · have hnil := hrows hkind
    obtain ⟨table', hfirst, hrows'⟩ :=
      @cleanupFirst_nil ⟨cutoff, false, batchSize⟩ kind table.toJobTable rfl hnil hsize
    obtain ⟨table'', second, hsecond, honce, -⟩ := cleanupPartition_spec hkind
      ⟨cutoff, false, batchSize⟩ table'
    obtain rfl := honce.eq_nil hrows'
    obtain ⟨dryFirst, drySecond, hdry, hdryFirst, hdrySecond⟩ :=
      @cleanupKind_dry ⟨cutoff, true, batchSize⟩ rfl kind table.toJobTable
    obtain rfl := hdryFirst.eq_nil hnil
    obtain rfl := (hdrySecond hkind).eq_nil hnil
    exact ⟨_, _, cleanupKind_eq hfirst hsecond, hdry, reported_nil rfl hnil, rfl, rfl⟩

end Kinds

/-! ## Whole runs -/

theorem deleteUnpartitionedTable_spec (command : Command) (result : KindResult) :
    (deleteUnpartitionedTable command result).kind = result.kind ∧
      (deleteUnpartitionedTable command result).counted = result.counted ∧
      (deleteUnpartitionedTable command result).table.rows = result.table.rows ∧
      (deleteUnpartitionedTable command result).table.partitions = result.table.partitions ∧
      ∀ events, (deleteUnpartitionedTable command result).table.unpartitioned = some events →
        result.table.unpartitioned = some events := by
  rw [deleteUnpartitionedTable.eq_def]
  split
  · split
    · exact ⟨rfl, rfl, rfl, rfl, fun events hevents => absurd hevents.symm (Option.some_ne_none _)⟩
    · exact ⟨rfl, rfl, rfl, rfl, fun _ hevents => hevents⟩
  · exact ⟨rfl, rfl, rfl, rfl, fun _ hevents => hevents⟩

theorem Reported.deleteUnpartitionedTable {table : JobTable} {result : KindResult}
    (hreported : Reported table result) (command : Command) :
    Reported table (deleteUnpartitionedTable command result) := by
  obtain ⟨-, hcounted, hrows, hpartitions, hunpartitioned⟩ :=
    deleteUnpartitionedTable_spec command result
  refine ⟨?_, ?_, ?_, ?_, ?_⟩
  · rw [hcounted, hrows]
    exact hreported.skipped
  · rw [hcounted, hrows]
    exact hreported.deleted
  · rw [hcounted, hpartitions]
    exact hreported.partitioned
  · rw [hcounted]
    exact fun pk hpk events hevents =>
      hreported.unpartitioned pk hpk events (hunpartitioned events hevents)
  · rw [hcounted]
    exact hreported.once

theorem counts_deleteUnpartitionedTable (command : Command) (result : KindResult) :
    (deleteUnpartitionedTable command result).counts = result.counts := by
  obtain ⟨hkind, hcounted, -⟩ := deleteUnpartitionedTable_spec command result
  rw [KindResult.counts, KindResult.counts, hkind, hcounted]

/-- The report can be trusted exactly when the chosen kinds, but for notifications, have no
jobs at all, and the size of the batches is positive as far as it matters. -/
theorem honest_iff (cutoff : Moment) (batchSize : ℤ) (only : Kind → Bool) (db : Database) :
    Honest cutoff batchSize only db ↔
      ∀ kind ∈ modelsToCleanup only, Countable cutoff batchSize kind (db.tables kind).toJobTable := by
  constructor
  · intro hhonest kind hkind
    obtain ⟨results, dryResults, hreal, hdry, hreported, -, hcounts⟩ := hhonest
    obtain ⟨passes, hpasses, hresults⟩ := bind_eq_ok hreal
    obtain rfl := Except.ok.inj hresults
    obtain ⟨dryPasses, hdryPasses, hdryResults⟩ := bind_eq_ok hdry
    obtain rfl := Except.ok.inj hdryResults
    obtain ⟨dryResult, hdryResult, hdryKind⟩ := (mem_of_mapM hdryPasses).1 kind hkind
    have hcount := List.mem_map_of_mem (f := KindResult.counts) hdryResult
    rw [hcounts, List.map_map] at hcount
    obtain ⟨result, hresult, hsame⟩ := List.mem_map.mp hcount
    rw [Function.comp_apply, counts_deleteUnpartitionedTable] at hsame
    obtain ⟨other, -, hother⟩ := (mem_of_mapM hpasses).2 result hresult
    obtain rfl : other = kind := by
      obtain ⟨-, -, -, -, -, hresultKind, -⟩ := cleanupKind_cases hother
      obtain ⟨-, -, -, -, -, hdryResultKind, -⟩ := cleanupKind_cases hdryKind
      rw [← hresultKind, ← hdryResultKind]
      exact (Prod.mk.inj hsame).1
    have hreport := hreported _ (List.mem_map_of_mem hresult)
    obtain ⟨hresultKind, hcounted, hrows, -⟩ :=
      deleteUnpartitionedTable_spec ⟨cutoff, false, batchSize⟩ result
    obtain ⟨-, -, -, -, -, hkindResult, -⟩ := cleanupKind_cases hother
    rw [hresultKind, hkindResult] at hreport
    have honce := hreport.once
    have hdeleted := hreport.deleted
    rw [hcounted] at honce hdeleted
    rw [hrows] at hdeleted
    exact countable_of_reported hother hdryKind honce hdeleted hsame.symm
  · intro hcountable
    have hkinds : ∀ kind, ∃ result dryResult, kind ∈ modelsToCleanup only →
        cleanupKind ⟨cutoff, false, batchSize⟩ kind (db.tables kind).toJobTable = .ok result ∧
        cleanupKind ⟨cutoff, true, batchSize⟩ kind (db.tables kind).toJobTable = .ok dryResult ∧
        Reported (db.tables kind).toJobTable result ∧
        dryResult.table = (db.tables kind).toJobTable ∧ dryResult.counts = result.counts := by
      intro kind
      by_cases hkind : kind ∈ modelsToCleanup only
      · obtain ⟨result, dryResult, hresult⟩ :=
          reported_of_countable (db.no_events kind) (hcountable kind hkind)
        exact ⟨result, dryResult, fun _ => hresult⟩
      · have hnone : KindResult := ⟨kind, (db.tables kind).toJobTable, ⟨[], []⟩⟩
        exact ⟨hnone, hnone, fun hmem => absurd hmem hkind⟩
    choose result dryResult hresult using hkinds
    have hreal := mapM_eq_ok fun kind hkind => (hresult kind hkind).1
    have hdry := mapM_eq_ok fun kind hkind => (hresult kind hkind).2.1
    have hkind : ∀ kind ∈ modelsToCleanup only, (result kind).kind = kind ∧
        (dryResult kind).kind = kind := by
      intro kind hkind
      obtain ⟨-, -, -, -, -, hresultKind, -⟩ := cleanupKind_cases (hresult kind hkind).1
      obtain ⟨-, -, -, -, -, hdryKind, -⟩ := cleanupKind_cases (hresult kind hkind).2.1
      exact ⟨hresultKind, hdryKind⟩
    refine ⟨((modelsToCleanup only).map result).map
      (deleteUnpartitionedTable ⟨cutoff, false, batchSize⟩), (modelsToCleanup only).map dryResult,
      ?_, ?_, ?_, ?_, ?_⟩
    · rw [handle, hreal]
      rfl
    · rw [handle, hdry]
      rfl
    · intro final hfinal
      obtain ⟨pass, hpass, rfl⟩ := List.mem_map.mp hfinal
      obtain ⟨kind, hmem, rfl⟩ := List.mem_map.mp hpass
      rw [(deleteUnpartitionedTable_spec _ _).1, (hkind kind hmem).1]
      exact (hresult kind hmem).2.2.1.deleteUnpartitionedTable _
    · intro final hfinal
      obtain ⟨kind, hmem, rfl⟩ := List.mem_map.mp hfinal
      rw [(hkind kind hmem).2]
      exact (hresult kind hmem).2.2.2.1
    · rw [List.map_map, List.map_map, List.map_map]
      refine List.map_congr_left fun kind hmem => ?_
      rw [Function.comp_apply, Function.comp_apply, Function.comp_apply,
        counts_deleteUnpartitionedTable]
      exact (hresult kind hmem).2.2.2.2

/-! ## What is left -/

section Left

end Left

/-! ## A job that is counted twice -/

def emptyTable : StoredTable where
  rows := []
  partitions := []
  unpartitioned := none
  pk_unique := List.nodup_nil
  events_by_hour := fun _ hpartition => absurd hpartition List.not_mem_nil

def twoJobs : Database where
  tables
    | .jobs => halfPastTable
    | _ => emptyTable
  no_events := by
    intro kind hkind
    cases kind with
    | workflowJobs => exact ⟨rfl, rfl⟩
    | notifications => exact ⟨rfl, rfl⟩
    | _ => exact absurd hkind (Option.some_ne_none _)

theorem counted_twice :
    ¬ ∀ (cutoff : Moment) (batchSize : ℤ) (only : Kind → Bool) (db : Database),
      Honest cutoff batchSize only db := by
  intro hclaim
  obtain ⟨results, -, hreal, -, hreported, -⟩ :=
    hclaim halfPast 100000 (fun kind => kind = .jobs) twoJobs
  have hcounted : (handle ⟨halfPast, false, 100000⟩ (fun kind => kind = .jobs)
      fun kind => (twoJobs.tables kind).toJobTable).toOption.map
        (List.map fun result => (result.kind, result.counted)) =
      some [(.jobs, ⟨[2, 2], [1]⟩)] := by decide +kernel
  rw [hreal] at hcounted
  have hmem : (Kind.jobs, (⟨[2, 2], [1]⟩ : Counted)) ∈
      results.map fun result => (result.kind, result.counted) := by
    rw [Option.some.inj hcounted]
    exact List.mem_singleton_self _
  obtain ⟨result, hresult, hsame⟩ := List.mem_map.mp hmem
  obtain ⟨hkind, hlists⟩ := Prod.mk.inj hsame
  have hlength := (hreported result hresult).once.length
  rw [hkind, hlists] at hlength
  exact absurd hlength (by decide)

end Forail.Cleanup
