import Mathlib.Algebra.BigOperators.Group.Finset.Basic
import Mathlib.Algebra.BigOperators.Ring.Finset
import Mathlib.Algebra.Ring.Int.Defs
import Mathlib.Data.List.TakeWhile
import Mathlib.Tactic.Ring
import Forail.Core.UniqueRows
import Forail.Tasks.HostMetrics

/-!
# What the monthly summaries add up to

Every month of the summary carries the total of the month before it, so all totals are
as right as the one the task starts from.  That one is read from a dictionary in
insertion order up to the first month that is kept, and misses the months in which
hosts were only deleted when some host was added later.
-/

namespace Forail.HostMetrics

open Forail.OrderedDicts Forail.UniqueRows

variable {metrics : List HostMetric} {month first today threshold capacity : ℤ}
  {column : List Month} {inputs : Inputs} {existing table : List HostMetricSummaryMonthly}

def hostsTotal (metrics : List HostMetric) (month : Month) : ℤ :=
  (firstAutomations metrics).countP (· ≤ month) - (deletions metrics).countP (· ≤ month)

def Telescopes (metrics : List HostMetric) (first today : Month)
    (table : List HostMetricSummaryMonthly) : Prop :=
  ∀ month, first ≤ month → month ≤ today →
    ∃ row, table.filter (fun summary => summary.date = month) = [row] ∧
      row.licenseConsumed = hostsTotal metrics month

/-! ## The counts of a month -/

def monthsOf (column : List Month) : List Month := column.dedup.insertionSort (· ≤ ·)

theorem mem_monthsOf : month ∈ monthsOf column ↔ month ∈ column := by
  rw [monthsOf, (List.perm_insertionSort _ _).mem_iff, List.mem_dedup]

theorem nodup_monthsOf (column : List Month) : (monthsOf column).Nodup :=
  (List.perm_insertionSort _ _).nodup_iff.mpr (List.nodup_dedup column)

theorem keys_countByMonth (column : List Month) :
    (countByMonth column).map Prod.fst = monthsOf column := by
  rw [countByMonth, List.map_map]
  exact List.map_id _

theorem takeWhile_monthsOf (kept : Month → Bool) (column : List Month) :
    ((monthsOf column).filter kept).takeWhile (· < first) =
      ((monthsOf column).filter kept).filter (· < first) := by
  apply takeWhile_eq_filter
  have hsorted : (monthsOf column).Pairwise (· ≤ ·) := List.pairwise_insertionSort _ _
  apply (hsorted.filter kept).imp
  intro earlier later hle hlater
  exact decide_eq_true (hle.trans_lt (of_decide_eq_true hlater))

theorem find?_countByMonth (column : List Month) (month : Month) :
    (countByMonth column).find? (fun row => row.1 = month) =
      if month ∈ column then some (month, column.count month) else none := by
  have hkeys : ((countByMonth column).map Prod.fst).Nodup := by
    rw [keys_countByMonth]
    exact nodup_monthsOf column
  by_cases hmem : month ∈ column
  · rw [if_pos hmem]
    have hrow : (month, column.count month) ∈ countByMonth column :=
      List.mem_map.mpr ⟨month, mem_monthsOf.mpr hmem, rfl⟩
    exact @find?_of_mem _ _ _ _ _ Prod.fst hkeys hrow
  · rw [if_neg hmem, List.find?_eq_none]
    intro row hrow hsame
    apply hmem
    rw [← of_decide_eq_true hsame, ← mem_monthsOf, ← keys_countByMonth]
    exact List.mem_map_of_mem hrow

def netOf (hostMetrics : MonthDict) (month : Month) : ℤ :=
  ((lookup hostMetrics month).getD ⟨none, none⟩).net

theorem netOf_loadHosts (metrics : List HostMetric) (month : Month) :
    netOf (loadHosts metrics) month =
      (firstAutomations metrics).count month - (deletions metrics).count month := by
  have hkeys : ∀ column : List Month, ((countByMonth column).map Prod.fst).Nodup := by
    intro column
    rw [keys_countByMonth]
    exact nodup_monthsOf column
  rw [netOf, loadHosts, loadHostsDeleted, lookup_upsertAll (hkeys _), loadHostsAdded,
    lookup_upsertAll (hkeys _), find?_countByMonth, find?_countByMonth]
  by_cases hadded : month ∈ firstAutomations metrics <;>
    by_cases hdeleted : month ∈ deletions metrics <;>
    simp [hadded, hdeleted, MonthCounts.net, lookup, List.count_eq_zero_of_not_mem]

theorem keys_loadHosts (metrics : List HostMetric) :
    (loadHosts metrics).map Prod.fst = monthsOf (firstAutomations metrics) ++
      (monthsOf (deletions metrics)).filter
        (· ∉ monthsOf (firstAutomations metrics)) := by
  have hkeys : ∀ column : List Month, ((countByMonth column).map Prod.fst).Nodup := by
    intro column
    rw [keys_countByMonth]
    exact nodup_monthsOf column
  have hadded : (loadHostsAdded metrics []).map Prod.fst =
      monthsOf (firstAutomations metrics) := by
    rw [loadHostsAdded, keys_upsertAll (hkeys _), keys_countByMonth]
    simp
  rw [loadHosts, loadHostsDeleted, keys_upsertAll (hkeys _), keys_countByMonth, hadded]

theorem nodup_keys_loadHosts (metrics : List HostMetric) :
    ((loadHosts metrics).map Prod.fst).Nodup := by
  rw [keys_loadHosts]
  apply List.Nodup.append (nodup_monthsOf _) ((nodup_monthsOf _).filter _)
  intro key hadded hdeleted
  exact (of_decide_eq_true (List.mem_filter.mp hdeleted).2) hadded

/-! ## The total before the first month -/

theorem getLicenseConsumedBefore_eq (hostMetrics : MonthDict) (start : ℤ) :
    getLicenseConsumedBefore first hostMetrics start =
      start + ((hostMetrics.takeWhile fun entry => entry.1 < first).map
        fun entry => entry.2.net).sum := by
  induction hostMetrics generalizing start with
  | nil => simp [getLicenseConsumedBefore]
  | cons entry rest ih =>
    rw [getLicenseConsumedBefore, List.takeWhile_cons]
    by_cases hbefore : entry.1 < first
    · rw [if_pos hbefore, if_pos (decide_eq_true hbefore), ih, List.map_cons, List.sum_cons,
        MonthCounts.net]
      ring
    · rw [if_neg hbefore, if_neg (mt of_decide_eq_true hbefore)]
      simp

theorem getLicenseConsumedBefore_loadHosts (metrics : List HostMetric) :
    getLicenseConsumedBefore first (loadHosts metrics) 0 =
      ((((loadHosts metrics).map Prod.fst).takeWhile (· < first)).map
        (netOf (loadHosts metrics))).sum := by
  rw [getLicenseConsumedBefore_eq, zero_add, List.takeWhile_map, List.map_map]
  congr 1
  apply List.map_congr_left
  intro entry hentry
  have hmem : entry ∈ loadHosts metrics := (List.takeWhile_sublist _).mem hentry
  have hfound : (loadHosts metrics).find? (fun other => other.1 = entry.1) = some entry :=
    find?_of_mem (nodup_keys_loadHosts metrics) hmem
  rw [Function.comp_apply, netOf, lookup, hfound]
  rfl

/-- Summed over months among which are all of a column, the counts are the number of its
rows. -/
theorem sum_count_eq_countP {months : List Month} (hall : ∀ month ∈ column, month ∈ months)
    (kept : Month → Bool) :
    ∑ month ∈ (months.filter kept).toFinset, (column.count month : ℤ) =
      column.countP kept := by
  have hcount := Finset.sum_filter_count_eq_countP (fun month => kept month = true) column
  simp only [Bool.decide_eq_true] at hcount
  rw [← hcount, Nat.cast_sum, eq_comm]
  apply Finset.sum_subset
  · intro month hmonth
    obtain ⟨hmem, hkept⟩ := Finset.mem_filter.mp hmonth
    exact List.mem_toFinset.mpr
      (List.mem_filter.mpr ⟨hall month (List.mem_toFinset.mp hmem), hkept⟩)
  · intro month hmonth hnot
    have hkept := (List.mem_filter.mp (List.mem_toFinset.mp hmonth)).2
    rw [List.count_eq_zero_of_not_mem, Nat.cast_zero]
    intro hmem
    exact hnot (Finset.mem_filter.mpr ⟨List.mem_toFinset.mpr hmem, hkept⟩)

theorem hostsTotal_before (metrics : List HostMetric) (first : Month) :
    hostsTotal metrics (first - 1) =
      ((((loadHosts metrics).map Prod.fst).filter (· < first)).map
        (netOf (loadHosts metrics))).sum := by
  have hkeys := keys_loadHosts metrics
  have hadded : ∀ month ∈ firstAutomations metrics,
      month ∈ (loadHosts metrics).map Prod.fst := by
    intro month hmem
    rw [hkeys]
    exact List.mem_append_left _ (mem_monthsOf.mpr hmem)
  have hdeleted : ∀ month ∈ deletions metrics,
      month ∈ (loadHosts metrics).map Prod.fst := by
    intro month hmem
    by_cases hknown : month ∈ firstAutomations metrics
    · exact hadded month hknown
    · rw [hkeys]
      apply List.mem_append_right
      refine List.mem_filter.mpr ⟨mem_monthsOf.mpr hmem, decide_eq_true ?_⟩
      exact mt mem_monthsOf.mp hknown
  rw [← List.sum_toFinset _ ((nodup_keys_loadHosts metrics).filter _)]
  simp only [netOf_loadHosts]
  rw [Finset.sum_sub_distrib, sum_count_eq_countP hadded, sum_count_eq_countP hdeleted,
    hostsTotal]
  simp only [Int.le_sub_one_iff]

theorem sum_map_eq_zero_iff {months : List Month} {net : Month → ℤ}
    (hneg : ∀ month ∈ months, net month < 0) :
    (months.map net).sum = 0 ↔ months = [] := by
  have hle : ∀ rest : List Month, (∀ month ∈ rest, net month < 0) →
      (rest.map net).sum ≤ 0 := by
    intro rest hrest
    induction rest with
    | nil => exact le_refl 0
    | cons head rest ih =>
      have hhead := hrest head List.mem_cons_self
      have htail := ih fun month hmem => hrest month (List.mem_cons_of_mem _ hmem)
      rw [List.map_cons, List.sum_cons]
      omega
  cases months with
  | nil => simp
  | cons head rest =>
    have hhead := hneg head List.mem_cons_self
    have htail := hle rest fun month hmem => hneg month (List.mem_cons_of_mem _ hmem)
    rw [List.map_cons, List.sum_cons]
    simp only [reduceCtorEq, iff_false]
    omega

/-- The total before the first month is right exactly when no host was added from that
month on, or hosts were added in every month before it in which hosts were deleted. -/
theorem getLicenseConsumedBefore_eq_iff (metrics : List HostMetric) (first : Month) :
    getLicenseConsumedBefore first (loadHosts metrics) 0 = hostsTotal metrics (first - 1) ↔
      (∀ month ∈ firstAutomations metrics, month < first) ∨
        ∀ month ∈ deletions metrics, month < first → month ∈ firstAutomations metrics := by
  have hsorted : (monthsOf (firstAutomations metrics)).takeWhile (· < first) =
      (monthsOf (firstAutomations metrics)).filter (· < first) := by
    simpa using @takeWhile_monthsOf first (fun _ => true) (firstAutomations metrics)
  rw [getLicenseConsumedBefore_loadHosts, hostsTotal_before, keys_loadHosts,
    List.filter_append]
  by_cases hall : ∀ month ∈ firstAutomations metrics, month < first
  · have hbefore : ∀ month ∈ monthsOf (firstAutomations metrics),
        decide (month < first) = true :=
      fun month hmem => decide_eq_true (hall month (mem_monthsOf.mp hmem))
    rw [List.takeWhile_append_of_pos hbefore, takeWhile_monthsOf,
      List.filter_eq_self.mpr hbefore]
    exact iff_of_true rfl (Or.inl hall)
  · -- the loop stops inside the months of the first query
    have hstop : ¬ ((monthsOf (firstAutomations metrics)).takeWhile (· < first)).length =
        (monthsOf (firstAutomations metrics)).length := by
      intro hlength
      have hsame := (List.takeWhile_sublist (· < first)).eq_of_length hlength
      apply hall
      intro month hmem
      have hkept := List.takeWhile_eq_self_iff.mp hsame month (mem_monthsOf.mpr hmem)
      exact of_decide_eq_true hkept
    have hneg : ∀ month ∈ ((monthsOf (deletions metrics)).filter
        (· ∉ monthsOf (firstAutomations metrics))).filter (· < first),
        netOf (loadHosts metrics) month < 0 := by
      intro month hmem
      obtain ⟨hdeleted, hnew⟩ := List.mem_filter.mp (List.mem_filter.mp hmem).1
      have hcount := List.count_pos_iff.mpr (mem_monthsOf.mp hdeleted)
      have hnone := List.count_eq_zero_of_not_mem
        (mt mem_monthsOf.mpr (of_decide_eq_true hnew))
      rw [netOf_loadHosts, hnone]
      omega
    rw [List.takeWhile_append, if_neg hstop, hsorted, List.map_append, List.sum_append,
      left_eq_add, sum_map_eq_zero_iff hneg, or_iff_right hall, List.filter_eq_nil_iff]
    simp only [List.mem_filter, decide_eq_true_eq, mem_monthsOf]
    grind

/-! ## The loop over the months -/

def monthTotals (net : Month → ℤ) : ℕ → Month → ℤ → List (Month × ℤ)
  | 0, _, _ => []
  | left + 1, month, total => (month, total) :: monthTotals net left (month + 1) (total + net month)

def createdSummary (inputs : Inputs) (existing : List HostMetricSummaryMonthly)
    (entry : Month × ℤ) : Option HostMetricSummaryMonthly :=
  match existing.find? fun summary => summary.date = entry.1 with
  | some _ => none
  | none => some (updateSummary inputs ⟨entry.1, 0, 0, 0, 0⟩ entry.1 entry.2)

def updatedSummary (inputs : Inputs) (existing : List HostMetricSummaryMonthly)
    (entry : Month × ℤ) : Option HostMetricSummaryMonthly :=
  (existing.find? fun summary => summary.date = entry.1).map fun summary =>
    updateSummary inputs summary entry.1 entry.2

@[simp]
theorem date_updateSummary (summary : HostMetricSummaryMonthly) (total : ℤ) :
    (updateSummary inputs summary month total).date = summary.date := rfl

@[simp]
theorem licenseConsumed_updateSummary (summary : HostMetricSummaryMonthly) (total : ℤ) :
    (updateSummary inputs summary month total).licenseConsumed =
      total + netOf inputs.hostMetrics month := by
  rw [netOf, MonthCounts.net, ← add_sub_assoc]
  rfl

theorem findSummary_eq
    (hsorted : existing.Pairwise fun left right => left.date < right.date) :
    findSummary month existing = (existing.find? fun summary => summary.date = month,
      existing.dropWhile fun summary => summary.date < month) := by
  induction existing with
  | nil => rfl
  | cons tmp rest ih =>
    obtain ⟨hlater, hrest⟩ := List.pairwise_cons.mp hsorted
    rw [findSummary, List.find?_cons, List.dropWhile_cons]
    by_cases hbefore : tmp.date < month
    · rw [if_pos hbefore, ih hrest, decide_eq_false (ne_of_lt hbefore),
        if_pos (decide_eq_true hbefore)]
    · rw [if_neg hbefore, if_neg (mt of_decide_eq_true hbefore)]
      by_cases hfound : tmp.date = month
      · rw [if_pos hfound, decide_eq_true hfound]
      · rw [if_neg hfound, decide_eq_false hfound, List.find?_eq_none.mpr]
        intro other hother hsame
        exact hbefore (of_decide_eq_true hsame ▸ hlater other hother)

structure CursorAt (existing : List HostMetricSummaryMonthly) (month : Month)
    (rest : List HostMetricSummaryMonthly) : Prop where
  sorted : rest.Pairwise fun left right => left.date < right.date
  same : ∀ later, month ≤ later →
    (rest.find? fun summary => summary.date = later) =
      existing.find? fun summary => summary.date = later

theorem find?_dropWhile {later : Month} (hle : month ≤ later)
    (rest : List HostMetricSummaryMonthly) :
    (rest.dropWhile fun summary => summary.date < month).find?
        (fun summary => summary.date = later) =
      rest.find? fun summary => summary.date = later := by
  induction rest with
  | nil => rfl
  | cons tmp rest ih =>
    rw [List.dropWhile_cons]
    by_cases hbefore : tmp.date < month
    · rw [if_pos (decide_eq_true hbefore), ih, List.find?_cons,
        decide_eq_false (ne_of_lt (hbefore.trans_le hle))]
    · rw [if_neg (mt of_decide_eq_true hbefore)]

theorem CursorAt.next {rest : List HostMetricSummaryMonthly}
    (hcursor : CursorAt existing month rest) :
    CursorAt existing (month + 1) (rest.dropWhile fun summary => summary.date < month) where
  sorted := hcursor.sorted.sublist (List.dropWhile_sublist _)
  same later hlater := by
    have hle : month ≤ later := (lt_add_one month).le.trans hlater
    rw [find?_dropWhile hle, hcursor.same later hle]

theorem fillMonth_eq {state : TaskState}
    (hcursor : CursorAt existing month state.existingSummaries) :
    fillMonth inputs state month =
      { existingSummaries :=
          state.existingSummaries.dropWhile fun summary => summary.date < month
        recordsToCreate := state.recordsToCreate ++
          (createdSummary inputs existing (month, state.licenseConsumed)).toList
        recordsToUpdate := state.recordsToUpdate ++
          (updatedSummary inputs existing (month, state.licenseConsumed)).toList
        licenseConsumed := state.licenseConsumed + netOf inputs.hostMetrics month } := by
  rw [fillMonth, findSummary_eq hcursor.sorted, hcursor.same month (le_refl month),
    createdSummary, updatedSummary]
  cases existing.find? fun summary => summary.date = month <;> simp

theorem fillMonths_eq {left : ℕ} {state : TaskState}
    (hcursor : CursorAt existing month state.existingSummaries) :
    (fillMonths inputs left month state).recordsToCreate = state.recordsToCreate ++
        (monthTotals (netOf inputs.hostMetrics) left month
          state.licenseConsumed).filterMap (createdSummary inputs existing) ∧
      (fillMonths inputs left month state).recordsToUpdate = state.recordsToUpdate ++
        (monthTotals (netOf inputs.hostMetrics) left month
          state.licenseConsumed).filterMap (updatedSummary inputs existing) := by
  induction left generalizing month state with
  | zero => simp [fillMonths, monthTotals]
  | succ left ih =>
    rw [fillMonths, monthTotals, List.filterMap_cons, List.filterMap_cons,
      fillMonth_eq hcursor]
    obtain ⟨hcreate, hupdate⟩ := @ih (month + 1)
      { existingSummaries :=
          state.existingSummaries.dropWhile fun summary => summary.date < month
        recordsToCreate := state.recordsToCreate ++
          (createdSummary inputs existing (month, state.licenseConsumed)).toList
        recordsToUpdate := state.recordsToUpdate ++
          (updatedSummary inputs existing (month, state.licenseConsumed)).toList
        licenseConsumed := state.licenseConsumed + netOf inputs.hostMetrics month }
      hcursor.next
    rw [hcreate, hupdate]
    constructor
    · cases createdSummary inputs existing (month, state.licenseConsumed) <;> simp
    · cases updatedSummary inputs existing (month, state.licenseConsumed) <;> simp

theorem mem_monthTotals {net total' : ℤ → ℤ}
    (hnet : ∀ month, total' month = total' (month - 1) + net month) {left : ℕ}
    {entry : ℤ × ℤ} {total : ℤ} :
    entry ∈ monthTotals net left month total ↔
      month ≤ entry.1 ∧ entry.1 < month + left ∧
        entry.2 = total' (entry.1 - 1) + (total - total' (month - 1)) := by
  obtain ⟨current, value⟩ := entry
  induction left generalizing month total with
  | zero =>
    simp only [monthTotals, List.not_mem_nil, Nat.cast_zero, add_zero, false_iff]
    omega
  | succ left ih =>
    rw [monthTotals, List.mem_cons, ih, Prod.mk.injEq, add_sub_cancel_right, hnet month]
    push_cast
    constructor
    · rintro (⟨rfl, rfl⟩ | ⟨hle, hlt, hvalue⟩)
      · omega
      · omega
    · rintro ⟨hle, hlt, hvalue⟩
      by_cases hfirst : current = month
      · subst hfirst
        omega
      · omega

theorem pairwise_monthTotals {net : ℤ → ℤ} {left : ℕ} {total : ℤ} :
    (monthTotals net left month total).Pairwise fun earlier later =>
      earlier.1 < later.1 := by
  have hfrom : ∀ left month total, ∀ entry ∈ monthTotals net left month total,
      month ≤ entry.1 := by
    intro left
    induction left with
    | zero => simp [monthTotals]
    | succ left ih =>
      intro month total entry hentry
      cases List.mem_cons.mp hentry with
      | inl hfirst => exact hfirst ▸ le_refl month
      | inr hrest => exact (lt_add_one month).le.trans (ih (month + 1) _ entry hrest)
  induction left generalizing month total with
  | zero => exact List.Pairwise.nil
  | succ left ih =>
    refine List.pairwise_cons.mpr ⟨?_, ih⟩
    intro entry hentry
    exact (lt_add_one month).trans_le (hfrom left (month + 1) _ entry hentry)

/-! ## The table after the task -/

theorem nodup_dates_filterMap {entries : List (Month × ℤ)}
    {summaryOf : Month × ℤ → Option HostMetricSummaryMonthly}
    (hdate : ∀ entry row, summaryOf entry = some row → row.date = entry.1)
    (hordered : entries.Pairwise fun earlier later => earlier.1 < later.1) :
    ((entries.filterMap summaryOf).map HostMetricSummaryMonthly.date).Nodup := by
  apply List.pairwise_map.mpr
  apply List.pairwise_filterMap.mpr
  apply hordered.imp
  intro earlier later hlt row hrow row' hrow'
  rw [hdate earlier row hrow, hdate later row' hrow']
  exact ne_of_lt hlt

theorem date_createdSummary {entry : Month × ℤ} {row : HostMetricSummaryMonthly}
    (hrow : createdSummary inputs existing entry = some row) :
    row.date = entry.1 ∧
      existing.find? (fun summary => summary.date = entry.1) = none := by
  rw [createdSummary] at hrow
  split at hrow
  · cases hrow
  · rename_i hnone
    cases hrow
    exact ⟨rfl, hnone⟩

theorem date_updatedSummary {entry : Month × ℤ} {row : HostMetricSummaryMonthly}
    (hrow : updatedSummary inputs existing entry = some row) :
    row.date = entry.1 ∧
      existing.find? (fun summary => summary.date = entry.1) ≠ none := by
  obtain ⟨summary, hfound, rfl⟩ := Option.map_eq_some_iff.mp hrow
  refine ⟨by simpa using List.find?_some hfound, ?_⟩
  rw [hfound]
  exact Option.some_ne_none summary

theorem nodup_dates_loadExistingSummaries
    (hdates : (table.map HostMetricSummaryMonthly.date).Nodup) (first : Month) :
    ((loadExistingSummaries first table).map HostMetricSummaryMonthly.date).Nodup := by
  have hperm := List.perm_insertionSort
    (fun left right : HostMetricSummaryMonthly => left.date ≤ right.date)
    (table.filter fun summary => first ≤ summary.date)
  rw [loadExistingSummaries, (hperm.map _).nodup_iff]
  exact hdates.sublist (List.filter_sublist.map _)

theorem cursorAt_loadExistingSummaries
    (hdates : (table.map HostMetricSummaryMonthly.date).Nodup) :
    CursorAt table first (loadExistingSummaries first table) where
  sorted := by
    have hnodup := nodup_dates_loadExistingSummaries hdates first
    have hsorted : (loadExistingSummaries first table).Pairwise
        fun left right => left.date ≤ right.date :=
      @List.pairwise_insertionSort _
        (fun left right : HostMetricSummaryMonthly => left.date ≤ right.date) _
        ⟨fun left right => le_total left.date right.date⟩
        ⟨fun _ _ _ hleft hright => le_trans hleft hright⟩ _
    exact (hsorted.and (List.pairwise_map.mp hnodup)).imp fun hboth =>
      lt_of_le_of_ne hboth.1 hboth.2
  same later hlater := by
    have hmem : ∀ row : HostMetricSummaryMonthly, row.date = later →
        (row ∈ loadExistingSummaries first table ↔ row ∈ table) := by
      intro row hrow
      rw [loadExistingSummaries, (List.perm_insertionSort _ _).mem_iff, List.mem_filter,
        and_iff_left (decide_eq_true (hrow ▸ hlater))]
    cases hfind : table.find? fun summary => summary.date = later with
    | some row =>
      have hdate : row.date = later := by simpa using List.find?_some hfind
      have hrow := (hmem row hdate).mpr (List.mem_of_find?_eq_some hfind)
      rw [← hdate]
      exact find?_of_mem (nodup_dates_loadExistingSummaries hdates first) hrow
    | none =>
      rw [List.find?_eq_none] at hfind ⊢
      intro row hrow hsame
      exact hfind row ((hmem row (of_decide_eq_true hsame)).mp hrow) hsame

theorem hostsTotal_step (metrics : List HostMetric) (month : ℤ) :
    hostsTotal metrics month =
      hostsTotal metrics (month - 1) + netOf (loadHosts metrics) month := by
  have hcount : ∀ column : List Month, column.countP (· ≤ month) =
      column.countP (· ≤ month - 1) + column.count month := by
    intro column
    induction column with
    | nil => rfl
    | cons head column ih =>
      rw [List.countP_cons, List.countP_cons, List.count_cons, ih]
      by_cases hsame : head = month
      · subst hsame
        simp
        omega
      · have hle : head ≤ month ↔ head ≤ month - 1 := by
          rw [Int.le_sub_one_iff]
          exact ⟨fun hle => lt_of_le_of_ne hle hsame, le_of_lt⟩
        simp [hsame, hle]
        omega
  rw [hostsTotal, hostsTotal, netOf_loadHosts, hcount, hcount (deletions metrics)]
  push_cast
  ring

theorem filter_bulkUpdate (records rows : List HostMetricSummaryMonthly) (month : Month) :
    (bulkUpdate records rows).filter (fun summary => summary.date = month) =
      bulkUpdate records (rows.filter fun summary => summary.date = month) := by
  rw [bulkUpdate, bulkUpdate, List.filter_map]
  congr 1
  apply List.filter_congr
  intro row _
  rw [Function.comp_apply]
  split <;> rfl

theorem filter_records (hdates : (table.map HostMetricSummaryMonthly.date).Nodup)
    {entries : List (Month × ℤ)} {total : ℤ}
    (hordered : entries.Pairwise fun earlier later => earlier.1 < later.1)
    (hentry : (month, total) ∈ entries) :
    ∃ row, (bulkUpdate (entries.filterMap (updatedSummary inputs table))
          (table ++ entries.filterMap (createdSummary inputs table))).filter
        (fun summary => summary.date = month) = [row] ∧
      row.licenseConsumed = total + netOf inputs.hostMetrics month := by
  have hcreated := nodup_dates_filterMap
    (fun entry row hrow => (@date_createdSummary inputs table entry row hrow).1) hordered
  have hupdated := nodup_dates_filterMap
    (fun entry row hrow => (@date_updatedSummary inputs table entry row hrow).1) hordered
  rw [filter_bulkUpdate, List.filter_append]
  cases hfind : table.find? fun summary => summary.date = month with
  | some found =>
    have hdate : found.date = month := by simpa using List.find?_some hfind
    have htable : table.filter (fun summary => summary.date = month) = [found] := by
      rw [← hdate]
      exact filter_eq_singleton hdates (List.mem_of_find?_eq_some hfind)
    have hnone : (entries.filterMap (createdSummary inputs table)).filter
        (fun summary => summary.date = month) = [] := by
      apply List.filter_eq_nil_iff.mpr
      intro row hrow hsame
      obtain ⟨entry, -, hsome⟩ := List.mem_filterMap.mp hrow
      obtain ⟨hentry', hmissing⟩ := date_createdSummary hsome
      rw [← hentry', of_decide_eq_true hsame, hfind] at hmissing
      exact absurd hmissing (Option.some_ne_none found)
    have hrecord : updateSummary inputs found month total ∈
        entries.filterMap (updatedSummary inputs table) :=
      List.mem_filterMap.mpr ⟨(month, total), hentry, by rw [updatedSummary, hfind]; rfl⟩
    have hwritten : (entries.filterMap (updatedSummary inputs table)).find?
        (fun record => record.date = found.date) =
          some (updateSummary inputs found month total) := find?_of_mem hupdated hrecord
    rw [htable, hnone, List.append_nil, bulkUpdate, List.map_singleton, hwritten]
    exact ⟨_, rfl, licenseConsumed_updateSummary found total⟩
  | none =>
    have htable : table.filter (fun summary => summary.date = month) = [] :=
      List.filter_eq_nil_iff.mpr (List.find?_eq_none.mp hfind)
    have hrecord : updateSummary inputs ⟨month, 0, 0, 0, 0⟩ month total ∈
        entries.filterMap (createdSummary inputs table) :=
      List.mem_filterMap.mpr ⟨(month, total), hentry, by rw [createdSummary, hfind]⟩
    have hsingle : (entries.filterMap (createdSummary inputs table)).filter
        (fun summary => summary.date = month) =
          [updateSummary inputs ⟨month, 0, 0, 0, 0⟩ month total] :=
      filter_eq_singleton hcreated hrecord
    have hunwritten : (entries.filterMap (updatedSummary inputs table)).find?
        (fun record => record.date = month) = none := by
      apply List.find?_eq_none.mpr
      intro row hrow hsame
      obtain ⟨entry, -, hsome⟩ := List.mem_filterMap.mp hrow
      obtain ⟨hentry', hfound⟩ := date_updatedSummary hsome
      rw [← hentry', of_decide_eq_true hsame] at hfound
      exact hfound hfind
    rw [htable, List.nil_append, hsingle, bulkUpdate, List.map_singleton,
      date_updateSummary, hunwritten]
    exact ⟨_, rfl, licenseConsumed_updateSummary _ total⟩

/-- Each month of the loop has one summary, with the error of the total that the loop
started from. -/
theorem execute_month (hdates : (table.map HostMetricSummaryMonthly.date).Nodup)
    (hfirst : getFirstMonth today threshold ≤ month) (htoday : month ≤ today) :
    ∃ row, (execute metrics table today threshold capacity).filter
        (fun summary => summary.date = month) = [row] ∧
      row.licenseConsumed = hostsTotal metrics month +
        (getLicenseConsumedBefore (getFirstMonth today threshold) (loadHosts metrics) 0 -
          hostsTotal metrics (getFirstMonth today threshold - 1)) := by
  have hcursor := @cursorAt_loadExistingSummaries (getFirstMonth today threshold) table hdates
  obtain ⟨hcreate, hupdate⟩ := @fillMonths_eq (getFirstMonth today threshold)
    ⟨loadHosts metrics, today, capacity⟩ table
    (today + 1 - getFirstMonth today threshold).toNat
    { existingSummaries := loadExistingSummaries (getFirstMonth today threshold) table
      recordsToCreate := []
      recordsToUpdate := []
      licenseConsumed :=
        getLicenseConsumedBefore (getFirstMonth today threshold) (loadHosts metrics) 0 }
    hcursor
  rw [List.nil_append] at hcreate hupdate
  have hentry : (month, hostsTotal metrics (month - 1) +
      (getLicenseConsumedBefore (getFirstMonth today threshold) (loadHosts metrics) 0 -
        hostsTotal metrics (getFirstMonth today threshold - 1))) ∈
      monthTotals (netOf (loadHosts metrics))
        (today + 1 - getFirstMonth today threshold).toNat (getFirstMonth today threshold)
        (getLicenseConsumedBefore (getFirstMonth today threshold) (loadHosts metrics) 0) := by
    refine (mem_monthTotals (hostsTotal_step metrics)).mpr ⟨hfirst, ?_, rfl⟩
    change month < _
    omega
  obtain ⟨row, hrow, htotal⟩ := filter_records hdates pairwise_monthTotals hentry
  refine ⟨row, ?_, ?_⟩
  · rw [execute, hcreate, hupdate]
    exact hrow
  · rw [htotal, hostsTotal_step metrics month]
    ring

/-- The totals of the task telescope exactly when it fills no month, no host was added
from the first month on, or hosts were added in every month before it in which hosts
were deleted. -/
theorem execute_telescopes_iff
    (hdates : (table.map HostMetricSummaryMonthly.date).Nodup) :
    Telescopes metrics (getFirstMonth today threshold) today
        (execute metrics table today threshold capacity) ↔
      today < getFirstMonth today threshold ∨
        (∀ metric ∈ metrics, metric.firstAutomation < getFirstMonth today threshold) ∨
        ∀ metric ∈ metrics, metric.deleted = true → ∀ month ∈ metric.lastDeleted,
          month < getFirstMonth today threshold →
            ∃ other ∈ metrics, other.firstAutomation = month := by
  have hstart := getLicenseConsumedBefore_eq_iff metrics (getFirstMonth today threshold)
  have hadded : ∀ month, month ∈ firstAutomations metrics ↔
      ∃ other ∈ metrics, other.firstAutomation = month := fun month => List.mem_map
  have hdeleted : ∀ month, month ∈ deletions metrics ↔
      ∃ metric ∈ metrics, metric.deleted = true ∧ month ∈ metric.lastDeleted := by
    intro month
    simp only [deletions, List.mem_filterMap, List.mem_filter, and_assoc, Option.mem_def]
  simp only [hadded, hdeleted] at hstart
  constructor
  · intro htelescopes
    by_cases hempty : today < getFirstMonth today threshold
    · exact Or.inl hempty
    · obtain ⟨row, hrow, htotal⟩ := htelescopes _ (le_refl _) (not_lt.mp hempty)
      obtain ⟨row', hrow', htotal'⟩ := @execute_month metrics (getFirstMonth today threshold)
        today threshold capacity table hdates (le_refl _) (not_lt.mp hempty)
      obtain rfl : row = row' := by
        rw [hrow] at hrow'
        exact List.singleton_inj.mp hrow'
      have hright := hstart.mp (by omega)
      grind
  · intro hcondition month hfirst htoday
    obtain ⟨row, hrow, htotal⟩ := @execute_month metrics month today threshold capacity table
      hdates hfirst htoday
    refine ⟨row, hrow, ?_⟩
    have hright := hstart.mpr (by grind)
    rw [htotal, hright, sub_self, add_zero]

def oldSummaries : List HostMetricSummaryMonthly :=
  [⟨99, 1, 10, 1, 0⟩, ⟨90, 0, 10, 0, 0⟩]

def steadyHosts : List HostMetric :=
  [⟨90, none, false⟩, ⟨90, some 99, true⟩, ⟨100, none, false⟩]

theorem execute_telescopes_steady :
    Telescopes steadyHosts (getFirstMonth 100 3) 100
      (execute steadyHosts oldSummaries 100 3 50) := by
  apply (execute_telescopes_iff (by decide)).mpr
  right
  right
  decide

/-- Two hosts are added in month 90, one is deleted in month 97, in which no host was
added, and one host is added in month 100.  The first month that is kept is 98. -/
def quietMonthHosts : List HostMetric :=
  [⟨90, none, false⟩, ⟨90, some 97, true⟩, ⟨100, none, false⟩]

theorem execute_quietMonth :
    ¬ Telescopes quietMonthHosts (getFirstMonth 100 3) 100
      (execute quietMonthHosts oldSummaries 100 3 50) := by
  intro htelescopes
  obtain ⟨row, hrow, htotal⟩ := htelescopes 100 (by decide) (by decide)
  have hresult : (execute quietMonthHosts oldSummaries 100 3 50).filter
      (fun summary => summary.date = 100) = [⟨100, 3, 50, 1, 0⟩] := by decide
  rw [hresult] at hrow
  rw [← List.singleton_inj.mp hrow] at htotal
  exact absurd htotal (by decide)

end Forail.HostMetrics
