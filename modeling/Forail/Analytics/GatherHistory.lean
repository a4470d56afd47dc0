import Forail.Analytics.GatherRuns

/-!
# The history of gather

A run of `gather` begins with the data that is shipped in one file, which only changes the
entries of that data.  What is kept between the runs is kept by every careful run.
-/

namespace Forail.Analytics

open Forail.Runs

variable {gathering : Gathering} {collectors : Collectors} {collector : CsvCollector}
  {configured : Bool} {limit untilTime : ℤ} {slice : ℤ × ℤ} {key : String} {log : List Event}
  {progress : Progress} {books : Bookkeeping} {interval : Interval} {entries : Entries}
  {data keys : List String} {done : List CsvCollector} {recorded : String → Option Recorded}

/-! ## Data -/

theorem advanceData_of_notMem (hkey : key ∉ keys) :
    advanceData untilTime keys entries key = entries key := by
  induction keys generalizing entries with
  | nil => rfl
  | cons other keys ih =>
    obtain ⟨hne, hrest⟩ := List.ne_and_not_mem_of_not_mem_cons hkey
    rw [advanceData, ih hrest, Function.update_of_ne hne]

theorem advanceData_time (htime : ∃ time, entries key = some (.time time)) :
    ∃ time, advanceData untilTime keys entries key = some (.time time) := by
  induction keys generalizing entries with
  | nil => exact htime
  | cons other keys ih =>
    rw [advanceData]
    apply ih
    by_cases hkey : key = other
    · subst hkey
      exact ⟨_, Function.update_self _ _ _⟩
    · obtain ⟨time, htime⟩ := htime
      exact ⟨time, (Function.update_of_ne hkey _ _).trans htime⟩

theorem gathered_start (hlog : progress.log = [])
    (hwritten : progress.recorded = dump progress.entries)
    (hentries : ∀ key ∉ collectors.json, progress.entries key = load books.lastEntries key)
    (htimes : ∀ key, (∃ time, load books.lastEntries key = some (.time time)) →
      ∃ time, progress.entries key = some (.time time)) :
    Gathered collectors gathering books interval [] progress where
  registered := List.nil_subset _
  written := hwritten
  covered := hlog ▸ entriesAccounted_nil
  entries := fun key hkey _ => hentries key hkey
  times := htimes
  sliced := fun _ _ _ hevent => absurd (hlog ▸ hevent) List.not_mem_nil
  failed := fun _ _ hevent => absurd (hlog ▸ hevent) List.not_mem_nil
  unsuccessful := fun _ _ hevent => absurd (hlog ▸ hevent) List.not_mem_nil
  held := fun _ _ hevent => absurd (hlog ▸ hevent) List.not_mem_nil
  again := fun _ _ _ hevent => absurd (hlog ▸ hevent) List.not_mem_nil

theorem gathered_collectData (hdata : data ⊆ collectors.json) :
    Gathered collectors gathering books interval []
      (collectData gathering interval data
        ⟨load books.lastEntries, books.lastEntries, true, []⟩).2 := by
  have hstart : ∀ succeeded, Gathered collectors gathering books interval []
      ⟨load books.lastEntries, books.lastEntries, succeeded, []⟩ := fun _ =>
    gathered_start rfl (dump_load _).symm (fun _ _ => rfl) fun _ htime => htime
  rw [collectData.eq_def]
  split
  · exact hstart true
  · split
    · exact hstart true
    · split
      · split
        · apply gathered_start rfl rfl
          · exact fun key hkey => advanceData_of_notMem fun hmem => hkey (hdata hmem)
          · exact fun key htime => advanceData_time htime
        · exact hstart false
        · exact hstart true
      · exact hstart true

theorem gathered_collectAll (hkept : Bookkept collectors books)
    (hcareful : Careful collectors books gathering)
    (honTime : gathering.OnTime collectors books.finished)
    (hinterval : interval = calculateCollectionInterval gathering.now books.lastGather) :
    ∃ done, Gathered collectors gathering books interval done
      (collectAll collectors gathering interval books.lastEntries).2 := by
  have hdata : dataKeys collectors gathering interval (load books.lastEntries) ⊆
      collectors.json := List.filter_sublist.subset
  have hstart : Gathered collectors gathering books interval []
      (collectData gathering interval _ _).2 := gathered_collectData hdata
  rw [collectAll]
  split
  · exact hstart.collectTables hkept hcareful honTime hinterval (List.Subset.refl _)
      collectors.nodup (fun _ hdone => absurd hdone List.not_mem_nil)
      (fun _ hdone => absurd hdone List.not_mem_nil) hcareful.sameKey
  · exact ⟨[], hstart⟩

/-! ## What is kept between runs -/

theorem FullDue.later {finished later : ℤ} (hle : finished ≤ later)
    (hdue : FullDue collectors finished key recorded) :
    FullDue collectors later key recorded := by
  obtain ⟨collector, hcollector, hkey, hhostMetric, hfull⟩ := hdue
  exact ⟨collector, hcollector, hkey, hhostMetric, fullSyncEnabled_mono hfull hle⟩

theorem any_isSliced_iff :
    log.any (Event.isSliced key) = true ↔
      ∃ horizon slices, .sliced key horizon slices ∈ log := by
  rw [List.any_eq_true]
  constructor
  · rintro ⟨event, hevent, hsliced⟩
    cases event with
    | sliced other horizon slices =>
      obtain rfl := of_decide_eq_true hsliced
      exact ⟨horizon, slices, hevent⟩
    | _ => exact absurd hsliced Bool.false_ne_true
  · rintro ⟨horizon, slices, hevent⟩
    exact ⟨_, hevent, decide_eq_true rfl⟩

theorem mem_filterMap_failedSlice_iff :
    slice ∈ log.filterMap (Event.failedSlice key) ↔ .failed key slice ∈ log := by
  rw [List.mem_filterMap]
  constructor
  · rintro ⟨event, hevent, hfailed⟩
    cases event with
    | failed other slice' =>
      obtain ⟨rfl, hsame⟩ := Option.ite_none_right_eq_some.mp hfailed
      exact Option.some.inj hsame ▸ hevent
    | _ => exact absurd hfailed.symm (Option.some_ne_none _)
  · exact fun hevent => ⟨_, hevent, if_pos rfl⟩

theorem mem_pending_cons {history : List (List Event)}
    (hpending : slice ∈ pending key (log :: history)) :
    .failed key slice ∈ log ∨
      (slice ∈ pending key history ∧ ∀ horizon slices, .sliced key horizon slices ∉ log) := by
  rw [pending] at hpending
  split at hpending
  · exact .inl (mem_filterMap_failedSlice_iff.mp hpending)
  · next hnone =>
    refine .inr ⟨hpending, fun horizon slices hsliced => hnone ?_⟩
    exact any_isSliced_iff.mpr ⟨horizon, slices, hsliced⟩

theorem Gathered.held_of_untried
    (hgathered : Gathered collectors gathering books interval done progress)
    (hcollector : collector ∈ collectors.csv) (hle : books.finished ≤ gathering.finished)
    (huntried : ∀ horizon slices, .sliced collector.key horizon slices ∉ progress.log)
    (hheld : Held collectors books.finished collector.key books.lastEntries limit) :
    Held collectors gathering.finished collector.key progress.recorded limit := by
  refine hheld.imp (fun hall time htime => ?_) fun hdue => ?_
  · rw [(hgathered.untouched hcollector huntried).recordedTime] at htime
    exact hall time htime
  · obtain ⟨other, hother, hkey, hhostMetric, hfull⟩ := hdue.later hle
    have huntouched := hgathered.untouched hother (hkey ▸ huntried)
    refine ⟨other, hother, hkey, hhostMetric, ?_⟩
    rw [huntouched.fullSyncEnabled_recorded, hfull]

theorem NoGap.cons {history : List (List Event)} (hnoGap : NoGap history)
    (hcovered : EntriesAccounted log history.flatten)
    (hagain : CollectedAgain log history) : NoGap (log :: history) where
  accounted := by
    intro after run before hsplit
    cases after with
    | nil =>
      obtain ⟨rfl, rfl⟩ := List.cons.inj hsplit
      exact hcovered
    | cons first after => exact hnoGap.accounted after run before (List.cons.inj hsplit).2
  again := by
    intro after run before hsplit
    cases after with
    | nil =>
      obtain ⟨rfl, rfl⟩ := List.cons.inj hsplit
      exact hagain
    | cons first after => exact hnoGap.again after run before (List.cons.inj hsplit).2

theorem Bookkept.gather (hkept : Bookkept collectors books)
    (hcareful : Careful collectors books gathering)
    (honTime : gathering.OnTime collectors books.finished) :
    Bookkept collectors (gather collectors gathering books) := by
  have hlater : books.finished ≤ gathering.finished := honTime.1.le.trans honTime.2.1
  rw [Analytics.gather]
  split
  · obtain ⟨done, hgathered⟩ := gathered_collectAll hkept hcareful honTime rfl
    refine ⟨hkept.noGap.cons hgathered.covered ?_, ?_, ?_, ?_⟩
    · intro key horizon slices hsliced slice hslice time htime hhorizon
      obtain ⟨rfl, hall⟩ := hgathered.again key horizon slices hsliced
      exact hall slice hslice time htime hhorizon
    · intro key slice hpending
      rcases mem_pending_cons hpending with hfailed | ⟨hold, huntried⟩
      · exact hgathered.held key slice hfailed
      · obtain ⟨collector, hcollector, rfl⟩ := hkept.tables key slice hold
        exact hgathered.held_of_untried hcollector hlater huntried
          (hkept.held collector.key slice hold)
    · intro key slice hpending
      rcases mem_pending_cons hpending with hfailed | ⟨hold, -⟩
      · exact (hgathered.failed key slice hfailed).1.trans honTime.2.1
      · exact (hkept.ends key slice hold).trans hlater
    · intro key slice hpending
      rcases mem_pending_cons hpending with hfailed | ⟨hold, -⟩
      · obtain ⟨-, collector, hcollector, hkey, -⟩ := hgathered.failed key slice hfailed
        exact ⟨collector, hgathered.registered hcollector, hkey⟩
      · exact hkept.tables key slice hold
  · exact ⟨hkept.noGap, fun key slice hpending => (hkept.held key slice hpending).imp_right
      fun hdue => hdue.later hlater, fun key slice hpending =>
        (hkept.ends key slice hpending).trans hlater, hkept.tables⟩

theorem bookkept_of_history_nil (hnew : books.history = []) : Bookkept collectors books := by
  have hnone : ∀ key, ∀ slice, slice ∉ pending key books.history := by
    intro key slice hpending
    rw [hnew] at hpending
    exact absurd hpending List.not_mem_nil
  refine ⟨⟨?_, ?_⟩, fun key slice hpending => absurd hpending (hnone key slice),
    fun key slice hpending => absurd hpending (hnone key slice),
    fun key slice hpending => absurd hpending (hnone key slice)⟩
  · intro after run before hsplit
    exact absurd (hsplit.symm.trans hnew) (List.append_ne_nil_of_right_ne_nil after
      (List.cons_ne_nil _ _))
  · intro after run before hsplit
    exact absurd (hsplit.symm.trans hnew) (List.append_ne_nil_of_right_ne_nil after
      (List.cons_ne_nil _ _))

/-- No gap is left by runs in which all slices that do not fail are packaged as a whole, no
slice succeeds after one that failed, and collections start in time. -/
theorem noGap_of_careful {first books : Bookkeeping} (hnew : first.history = [])
    (hruns : Run (step collectors) (Careful collectors) first books) :
    NoGap books.history := by
  suffices hkept : Bookkept collectors books from hkept.noGap
  apply hruns.invariant (Bookkept collectors) (bookkept_of_history_nil hnew)
  intro books gathering books' hkept hcareful hstep
  rw [step] at hstep
  obtain ⟨honTime, hsome⟩ := Option.ite_none_right_eq_some.mp hstep
  exact Option.some.inj hsome ▸ hkept.gather hcareful honTime

/-! ## A table of templates -/

def templateTable : CsvCollector :=
  ⟨"unified_job_template_table", "unified_job_template_table", .trivialSlicing, none⟩

def templateCollectors : Collectors where
  json := ["config"]
  csv := [templateTable]
  nodup := by decide +kernel
  shared := by
    intro collector hcollector other hother _ hne
    exact absurd ((List.mem_singleton.mp hcollector).trans (List.mem_singleton.mp hother).symm) hne
  apart := by decide +kernel
  fullApart := by decide +kernel

def templateRun (now : ℤ) (file : File) : Gathering where
  enabled := true
  now := now
  hasData := fun _ => true
  dataFile := ⟨true, .accepted⟩
  collect := fun _ _ => some [file]
  lowestDate := none
  checkedAt := fun _ => now
  syncedAt := fun _ => now
  finished := now

def templateBooks : Bookkeeping where
  lastEntries := Function.update (fun _ => none) "unified_job_template_table" (some (.time 1000))
  lastGather := some 1000000
  history := []
  finished := 1000000

theorem careful_templateRun {now : ℤ} {file : File} (hpackaged : file.packaged = true)
    (hrecorded : recordedTime books.lastEntries templateTable.key ≠ none) :
    Careful templateCollectors books (templateRun now file) where
  packaged := by
    intro collector _ slice files hfiles _ file' hfile
    obtain rfl := Option.some.inj hfiles
    obtain rfl := List.mem_singleton.mp hfile
    exact hpackaged
  ordered := by
    rintro collector - slice slice' ⟨_, hfiles, file', hfile, -, hfails⟩ ⟨_, hfiles', hsucceeds⟩
    obtain rfl := Option.some.inj hfiles
    obtain rfl := Option.some.inj hfiles'
    obtain rfl := List.mem_singleton.mp hfile
    exact absurd (hsucceeds _ List.mem_cons_self hpackaged) hfails
  sameKey := List.pairwise_singleton _ _
  started := by
    intro collector hcollector
    obtain rfl := List.mem_singleton.mp hcollector
    exact .inl hrecorded

theorem noGap_after_refused :
    NoGap [[.advanced "unified_job_template_table" (some 1000000) (-2419197000000) 3000000,
        .collected "unified_job_template_table" (1000000, 3000000),
        .sliced "unified_job_template_table" (-2419197000000) [(1000000, 3000000)]],
      [.failed "unified_job_template_table" (1000000, 2000000),
        .sliced "unified_job_template_table" (-2419198000000) [(1000000, 2000000)]]] := by
  have hfirst : Run (step templateCollectors) (Careful templateCollectors) templateBooks
      (gather templateCollectors (templateRun 2000000 ⟨true, .refused⟩) templateBooks) :=
    .next _ .start (careful_templateRun rfl (by decide +kernel)) (if_pos (by decide +kernel))
  exact noGap_of_careful rfl
    (.next (templateRun 3000000 ⟨true, .accepted⟩) hfirst
      (careful_templateRun rfl (by decide +kernel)) (if_pos (by decide +kernel)))

theorem gap_of_not_packaged : ¬ ∀ (collectors : Collectors) (first books : Bookkeeping),
    first.history = [] → Run (step collectors) (fun _ _ => True) first books →
      NoGap books.history := by
  intro hall
  have hgap := hall templateCollectors templateBooks
    (gather templateCollectors (templateRun 2000000 ⟨false, .accepted⟩) templateBooks) rfl
    (.next _ .start trivial (if_pos (by decide +kernel)))
  have hhistory : (gather templateCollectors (templateRun 2000000 ⟨false, .accepted⟩)
      templateBooks).history =
        [[.advanced "unified_job_template_table" (some 1000000) (-2419198000000) 2000000,
          .failed "unified_job_template_table" (1000000, 2000000),
          .sliced "unified_job_template_table" (-2419198000000) [(1000000, 2000000)]]] := by
    decide +kernel
  rw [hhistory] at hgap
  obtain ⟨slice, hslice, -⟩ := hgap.accounted [] _ [] rfl [] _ _ _ _ _ rfl 2000000
    (fun recorded hrecorded => Option.some.inj hrecorded ▸ by decide) (by decide) le_rfl
  simp at hslice

end Forail.Analytics
