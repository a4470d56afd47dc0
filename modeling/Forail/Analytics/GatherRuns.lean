import Forail.Analytics.NoGap

/-!
# Runs of gather

Every collection of a table starts where the last one ended or at the horizon, so that a
run goes on where the one before failed.
-/

namespace Forail.Analytics

open Forail.Slices

variable {gathering : Gathering} {collectors : Collectors} {collector : CsvCollector}
  {configured : Bool} {horizon start cur limit time : ℤ} {slice : ℤ × ℤ}
  {slices : List (ℤ × ℤ)} {key : String} {progress : Progress} {books : Bookkeeping}
  {interval : Interval} {lowestDate : Option ℤ} {fullSync : Bool}
  {recorded : String → Option Recorded}

/-! ## Where a collection starts -/

/-- The start of a collection by its last entry, or by the last run without one. -/
def entryStart (interval : Interval) (entry : Option Entry) : ℤ :=
  (lastEntry interval entry).getD (max interval.lastGather interval.horizon)

theorem consecutive_of_regular (hregular : collector.slicing ≠ .hostMetricSlicing)
    (hslices : slicesOf collector interval lowestDate fullSync recorded = some slices) :
    Consecutive interval.untilTime (entryStart interval (load recorded collector.key)) slices := by
  rw [slicesOf.eq_def] at hslices
  dsimp only at hslices
  split at hslices
  · obtain ⟨start, hstart, rfl⟩ := Option.map_eq_some_iff.mp hslices
    rw [entryStart, hstart]
    exact .last
  · obtain rfl := Option.some.inj hslices
    exact consecutive_slicesFrom _ _
  · next hhostMetric => exact absurd hhostMetric hregular

theorem slices_of_hostMetric (hhostMetric : collector.slicing = .hostMetricSlicing)
    (hslices : slicesOf collector interval lowestDate fullSync recorded = some slices) :
    (fullSync = false ∧ ∃ start, load recorded collector.key = some (.time start) ∧
        Consecutive interval.untilTime start slices) ∨
      ((fullSync = true ∨ load recorded collector.key = none) ∧
        ((∃ start, lowestDate = some start ∧ Consecutive interval.untilTime start slices) ∨
          (lowestDate = none ∧ slices = []))) := by
  rw [slicesOf.eq_def, hhostMetric] at hslices
  change hostMetricSlices _ _ _ _ = _ at hslices
  rw [hostMetricSlices.eq_def] at hslices
  split at hslices
  · next start hentry =>
    obtain ⟨hfull, hentry⟩ := Option.ite_none_left_eq_some.mp hentry
    obtain rfl := Option.some.inj hslices
    exact .inl ⟨Bool.eq_false_of_not_eq_true hfull, start, hentry, consecutive_slicesFrom _ _⟩
  · exact absurd hslices.symm (Option.some_ne_none _)
  · next hnone =>
    right
    constructor
    · cases fullSync with
      | true => exact .inl rfl
      | false => exact .inr hnone
    · split at hslices
      · next start =>
        obtain rfl := Option.some.inj hslices
        exact .inl ⟨start, rfl, consecutive_slicesFrom _ _⟩
      · exact .inr ⟨rfl, (Option.some.inj hslices).symm⟩

/-- What holds between the runs: no gap so far, and the entries of tables are not after
slices that failed. -/
structure Bookkept (collectors : Collectors) (books : Bookkeeping) : Prop where
  noGap : NoGap books.history
  held : ∀ key, ∀ slice ∈ pending key books.history,
    Held collectors books.finished key books.lastEntries slice.1
  ends : ∀ key, ∀ slice ∈ pending key books.history, slice.2 ≤ books.finished
  tables : ∀ key, ∀ slice ∈ pending key books.history,
    ∃ collector ∈ collectors.csv, collector.key = key

/-- A table is sliced from `cur` on, where nothing is behind the recorded time and the horizon
but behind `start`. -/
structure Planned (collectors : Collectors) (gathering : Gathering) (collector : CsvCollector)
    (interval : Interval) (progress : Progress) (start cur : ℤ) (slices : List (ℤ × ℤ)) :
    Prop where
  consecutive : Consecutive interval.untilTime cur slices
  begins : start = cur ∨ slices = []
  reaches : ∀ time, (∀ recorded, recordedTime progress.recorded collector.key = some recorded →
    recorded < time) → interval.horizon < time → start < time
  held : Held collectors gathering.finished collector.key progress.recorded cur

theorem recordedTime_eq_some_iff :
    recordedTime recorded key = some time ↔ load recorded key = some (.time time) := by
  rw [recordedTime, load]
  cases recorded key with
  | none => simp
  | some entry => cases entry <;> simp [Recorded.load]

theorem entryStart_of_time (hentry : load recorded key = some (.time time)) :
    entryStart interval (load recorded key) = max time interval.horizon := by
  rw [hentry]
  rfl

theorem entryStart_of_not_time (hnone : recordedTime recorded key = none) :
    entryStart interval (load recorded key) = max interval.lastGather interval.horizon := by
  cases hentry : load recorded key with
  | none => rfl
  | some entry =>
    cases entry with
    | time time =>
      rw [recordedTime_eq_some_iff.mpr hentry] at hnone
      exact absurd hnone (Option.some_ne_none _)
    | other => rfl

/-- A regular collection starts in time with a recorded time, or when the last run is behind
the horizon. -/
theorem planned_of_regular (hregular : collector.slicing ≠ .hostMetricSlicing)
    (hstarted : recordedTime progress.recorded collector.key ≠ none ∨
      interval.lastGather ≤ interval.horizon)
    (hslices : slicesOf collector interval lowestDate fullSync progress.recorded = some slices) :
    Planned collectors gathering collector interval progress
      (entryStart interval (load progress.recorded collector.key))
      (entryStart interval (load progress.recorded collector.key)) slices where
  consecutive := consecutive_of_regular hregular hslices
  begins := .inl rfl
  reaches := by
    intro time hrecorded hhorizon
    cases hentry : recordedTime progress.recorded collector.key with
    | some entry =>
      rw [entryStart_of_time (recordedTime_eq_some_iff.mp hentry)]
      exact max_lt (hrecorded entry hentry) hhorizon
    | none =>
      rw [entryStart_of_not_time hentry]
      exact max_lt ((hstarted.resolve_left fun hne => hne hentry).trans_lt hhorizon) hhorizon
  held := by
    left
    intro time htime
    rw [entryStart_of_time (recordedTime_eq_some_iff.mp htime)]
    exact le_max_left _ _

theorem fullSyncEnabled_mono {entries : Entries} {checked later : ℤ}
    (hdue : fullSyncEnabled collector checked entries = some true) (hle : checked ≤ later) :
    fullSyncEnabled collector later entries = some true := by
  rw [fullSyncEnabled.eq_def] at hdue ⊢
  split at hdue
  · exact absurd (Option.some.inj hdue) Bool.false_ne_true
  · rfl
  · have hlt := of_decide_eq_true (Option.some.inj hdue)
    exact congrArg some (decide_eq_true (by omega))
  · exact absurd hdue.symm (Option.some_ne_none _)

structure Untouched (collector : CsvCollector) (books : Bookkeeping) (progress : Progress) :
    Prop where
  recorded : progress.recorded collector.key = books.lastEntries collector.key
  recordedFull : progress.recorded collector.fullKey = books.lastEntries collector.fullKey
  entriesFull : progress.entries collector.fullKey = load books.lastEntries collector.fullKey

theorem Untouched.recordedTime (huntouched : Untouched collector books progress) :
    recordedTime progress.recorded collector.key =
      recordedTime books.lastEntries collector.key := by
  rw [Analytics.recordedTime, huntouched.recorded, Analytics.recordedTime]

theorem Untouched.fullSyncEnabled (huntouched : Untouched collector books progress)
    (checked : ℤ) : fullSyncEnabled collector checked progress.entries =
      fullSyncEnabled collector checked (load books.lastEntries) :=
  fullSyncEnabled_congr huntouched.entriesFull

theorem Untouched.fullSyncEnabled_recorded (huntouched : Untouched collector books progress)
    (checked : ℤ) : Analytics.fullSyncEnabled collector checked (load progress.recorded) =
      Analytics.fullSyncEnabled collector checked (load books.lastEntries) :=
  fullSyncEnabled_congr (by rw [load, huntouched.recordedFull, load])

theorem planned_of_hostMetric (hcollector : collector ∈ collectors.csv)
    (hhostMetric : collector.slicing = .hostMetricSlicing)
    (huntouched : Untouched collector books progress)
    (hstarted : StartsInTime gathering collector books)
    (hhorizon : interval.horizon = gathering.now - fourWeeks)
    (hchecked : gathering.checkedAt collector ≤ gathering.finished)
    (hfull : fullSyncEnabled collector (gathering.checkedAt collector) progress.entries =
      some fullSync)
    (hslices : slicesOf collector interval gathering.lowestDate fullSync progress.recorded =
      some slices) :
    ∃ start cur, Planned collectors gathering collector interval progress start cur slices := by
  rw [StartsInTime, hhostMetric] at hstarted
  rcases slices_of_hostMetric hhostMetric hslices with
    ⟨-, start, hentry, hconsecutive⟩ | ⟨hwhole, hlowest⟩
  · have hrecorded := recordedTime_eq_some_iff.mpr hentry
    refine ⟨start, start, hconsecutive, .inl rfl, fun time hall _ => hall start hrecorded, .inl ?_⟩
    intro time htime
    exact (Option.some.inj (hrecorded.symm.trans htime)).ge
  · have hheld : ∀ cur, Held collectors gathering.finished collector.key progress.recorded cur := by
      intro cur
      rcases hwhole with rfl | hnone
      · right
        refine ⟨collector, hcollector, rfl, hhostMetric, ?_⟩
        rw [huntouched.fullSyncEnabled_recorded, ← huntouched.fullSyncEnabled]
        exact fullSyncEnabled_mono hfull hchecked
      · left
        intro time htime
        rw [recordedTime_eq_some_iff.mp htime] at hnone
        exact absurd hnone (Option.some_ne_none _)
    have hcondition : Analytics.fullSyncEnabled collector (gathering.checkedAt collector)
        (load books.lastEntries) = some true ∨ books.lastEntries collector.key = none := by
      refine hwhole.imp (fun htrue => ?_) fun hnone => ?_
      · rw [← huntouched.fullSyncEnabled, hfull, htrue]
      · rw [load, Option.map_eq_none_iff, huntouched.recorded] at hnone
        exact hnone
    have hlatest := hstarted hcondition
    rcases hlowest with ⟨start, hlowestDate, hconsecutive⟩ | ⟨-, rfl⟩
    · rw [hlowestDate] at hlatest
      refine ⟨start, start, hconsecutive, .inl rfl, fun time hall htime => ?_, hheld _⟩
      refine hlatest.1.trans_lt (max_lt ?_ (hhorizon ▸ htime))
      cases hrecorded : Analytics.recordedTime books.lastEntries collector.key with
      | none => exact hhorizon ▸ htime
      | some entry => exact hall entry (huntouched.recordedTime.trans hrecorded)
    · exact ⟨interval.horizon, interval.untilTime, .nil le_rfl, .inr rfl,
        fun _ _ htime => htime, hheld _⟩

/-! ## What is collected again -/

theorem exists_slice_of_start (hslices : Consecutive limit start slices)
    (hstart : start ≤ max slice.1 horizon) (hend : slice.2 ≤ limit)
    (htime : time ∈ period slice.1 slice.2) (hhorizon : horizon < time) :
    ∃ slice' ∈ slices, time ∈ period slice'.1 slice'.2 :=
  hslices.covers ⟨hstart.trans_lt (max_lt htime.1 hhorizon), htime.2.trans hend⟩

theorem lastGather_le_of_started (hregular : collector.slicing ≠ .hostMetricSlicing)
    (hstarted : StartsInTime gathering collector books) :
    recordedTime books.lastEntries collector.key ≠ none ∨
      (calculateCollectionInterval gathering.now books.lastGather).lastGather ≤
        (calculateCollectionInterval gathering.now books.lastGather).horizon := by
  have hcases : recordedTime books.lastEntries collector.key ≠ none ∨
      ∀ time, books.lastGather = some time → time ≤ gathering.now - fourWeeks := by
    rw [StartsInTime] at hstarted
    split at hstarted
    · next hhostMetric => exact absurd hhostMetric hregular
    · exact hstarted
  refine hcases.imp_right fun hlast => max_le ?_ le_rfl
  cases hgather : books.lastGather with
  | none => exact le_rfl
  | some time => exact hlast time hgather

theorem eq_of_fullDue (hcollector : collector ∈ collectors.csv) {finished : ℤ}
    (hdue : FullDue collectors finished collector.key recorded) :
    collector.slicing = .hostMetricSlicing ∧
      fullSyncEnabled collector finished (load recorded) = some true := by
  obtain ⟨other, hother, hkey, hhostMetric, hfull⟩ := hdue
  by_cases hsame : other = collector
  · exact hsame ▸ ⟨hhostMetric, hfull⟩
  · have hfourHour := collectors.shared other hother collector hcollector hkey hsame
    rw [hhostMetric] at hfourHour
    exact Slicing.noConfusion hfourHour

theorem exists_slice_of_pending (hkept : Bookkept collectors books)
    (hcollector : collector ∈ collectors.csv)
    (huntouched : Untouched collector books progress)
    (hstarted : StartsInTime gathering collector books)
    (honTime : gathering.OnTime collectors books.finished)
    (hinterval : interval = calculateCollectionInterval gathering.now books.lastGather)
    (hfull : fullSyncEnabled collector (gathering.checkedAt collector) progress.entries =
      some fullSync)
    (hslices : slicesOf collector interval gathering.lowestDate fullSync progress.recorded =
      some slices)
    (hslice : slice ∈ pending collector.key books.history)
    (htime : time ∈ period slice.1 slice.2) (hhorizon : interval.horizon < time) :
    ∃ slice' ∈ slices, time ∈ period slice'.1 slice'.2 := by
  have hend : slice.2 ≤ interval.untilTime :=
    (hkept.ends collector.key slice hslice).trans (hinterval ▸ honTime.1.le)
  have hheld := hkept.held collector.key slice hslice
  by_cases hregular : collector.slicing = .hostMetricSlicing
  · rcases slices_of_hostMetric hregular hslices with
      ⟨rfl, start, hentry, hconsecutive⟩ | ⟨hwhole, hlowest⟩
    · apply exists_slice_of_start hconsecutive (le_max_of_le_left _) hend htime hhorizon
      rw [← recordedTime_eq_some_iff, huntouched.recordedTime] at hentry
      rcases hheld with hall | hdue
      · exact hall start hentry
      · have htrue := fullSyncEnabled_mono (eq_of_fullDue hcollector hdue).2
          (honTime.1.le.trans (honTime.2.2 collector hcollector).1)
        rw [← huntouched.fullSyncEnabled, hfull] at htrue
        exact absurd (Option.some.inj htrue) Bool.false_ne_true
    · rw [StartsInTime, hregular] at hstarted
      have hlatest := hstarted (hwhole.imp
        (fun htrue => by rw [← huntouched.fullSyncEnabled, hfull, htrue])
        fun hnone => by
          rw [load, Option.map_eq_none_iff, huntouched.recorded] at hnone
          exact hnone)
      rcases hlowest with ⟨start, hlowestDate, hconsecutive⟩ | ⟨hlowestDate, -⟩
      · rw [hlowestDate] at hlatest
        rw [hinterval] at hhorizon
        exact exists_slice_of_start hconsecutive (hlatest.2 slice hslice) hend htime hhorizon
      · rw [hlowestDate] at hlatest
        have hnone : pending collector.key books.history = [] := hlatest
        rw [hnone] at hslice
        exact absurd hslice List.not_mem_nil
  · refine exists_slice_of_start (consecutive_of_regular hregular hslices) ?_ hend htime hhorizon
    cases hentry : recordedTime progress.recorded collector.key with
    | some entry =>
      rw [entryStart_of_time (recordedTime_eq_some_iff.mp hentry)]
      rw [huntouched.recordedTime] at hentry
      apply max_le_max_right
      exact hheld.elim (fun hall => hall entry hentry)
        fun hdue => absurd (eq_of_fullDue hcollector hdue).1 hregular
    | none =>
      rw [entryStart_of_not_time hentry]
      rw [huntouched.recordedTime] at hentry
      have hlast := (lastGather_le_of_started hregular hstarted).resolve_left
        (not_not_intro hentry)
      rw [← hinterval] at hlast
      exact (max_le hlast le_rfl).trans (le_max_right _ _)

/-! ## The tables of a run -/

structure Gathered (collectors : Collectors) (gathering : Gathering) (books : Bookkeeping)
    (interval : Interval) (done : List CsvCollector) (progress : Progress) : Prop where
  registered : done ⊆ collectors.csv
  written : progress.recorded = dump progress.entries
  covered : EntriesAccounted progress.log books.history.flatten
  entries : ∀ key ∉ collectors.json, (∀ collector ∈ done,
    (∃ horizon slices, .sliced collector.key horizon slices ∈ progress.log) →
      key ≠ collector.key ∧ key ≠ collector.fullKey) →
    progress.entries key = load books.lastEntries key
  times : ∀ key, (∃ time, load books.lastEntries key = some (.time time)) →
    ∃ time, progress.entries key = some (.time time)
  sliced : ∀ key horizon slices, .sliced key horizon slices ∈ progress.log →
    ∃ collector ∈ done, collector.key = key
  failed : ∀ key slice, .failed key slice ∈ progress.log → slice.2 ≤ interval.untilTime ∧
    ∃ collector ∈ done, collector.key = key ∧ Fails gathering collector slice
  unsuccessful : ∀ key slice, .failed key slice ∈ progress.log → progress.succeeded = false
  held : ∀ key slice, .failed key slice ∈ progress.log →
    Held collectors gathering.finished key progress.recorded slice.1
  again : ∀ key horizon slices, .sliced key horizon slices ∈ progress.log →
    horizon = interval.horizon ∧ ∀ slice ∈ pending key books.history,
      ∀ time ∈ period slice.1 slice.2, interval.horizon < time →
        ∃ slices', .sliced key interval.horizon slices' ∈ progress.log ∧
          ∃ slice' ∈ slices', time ∈ period slice'.1 slice'.2

variable {done : List CsvCollector}

theorem fullKey_injective {other : CsvCollector} (hsame : collector.fullKey = other.fullKey) :
    collector.key = other.key :=
  (String.append_left_inj "_full").mp hsame

section

variable (hgathered : Gathered collectors gathering books interval done progress)
include hgathered

theorem Gathered.untouched (hcollector : collector ∈ collectors.csv)
    (hfirst : ∀ horizon slices, .sliced collector.key horizon slices ∉ progress.log) :
    Untouched collector books progress := by
  have hkey : progress.entries collector.key = load books.lastEntries collector.key := by
    apply hgathered.entries collector.key (collectors.apart collector hcollector).1
    rintro other hother ⟨horizon, slices, hsliced⟩
    constructor
    · exact fun hsame => hfirst horizon slices (hsame ▸ hsliced)
    · exact collectors.fullApart collector hcollector other (hgathered.registered hother)
  have hfullKey : progress.entries collector.fullKey =
      load books.lastEntries collector.fullKey := by
    apply hgathered.entries collector.fullKey (collectors.apart collector hcollector).2
    rintro other hother ⟨horizon, slices, hsliced⟩
    constructor
    · exact (collectors.fullApart other (hgathered.registered hother) collector hcollector).symm
    · exact fun hsame => hfirst horizon slices (fullKey_injective hsame ▸ hsliced)
  have hrecorded : ∀ key, progress.entries key = load books.lastEntries key →
      progress.recorded key = books.lastEntries key := by
    intro key hsame
    rw [hgathered.written, dump, hsame]
    exact congrFun (dump_load books.lastEntries) key
  exact ⟨hrecorded _ hkey, hrecorded _ hfullKey, hfullKey⟩

theorem Gathered.first_of_hostMetric
    (hcollector : collector ∈ collectors.csv) (hnew : collector ∉ done)
    (hhostMetric : collector.slicing = .hostMetricSlicing) (horizon : ℤ)
    (slices : List (ℤ × ℤ)) : .sliced collector.key horizon slices ∉ progress.log := by
  intro hsliced
  obtain ⟨other, hother, hkey⟩ := hgathered.sliced _ _ _ hsliced
  have hne : collector ≠ other := fun hsame => hnew (hsame ▸ hother)
  have hfourHour := collectors.shared collector hcollector other (hgathered.registered hother)
    hkey.symm hne
  rw [hhostMetric] at hfourHour
  exact Slicing.noConfusion hfourHour

theorem Gathered.mono (hcollector : collector ∈ collectors.csv) (succeeded : Bool)
    (hsucceeded : succeeded = progress.succeeded ∨ succeeded = false) :
    Gathered collectors gathering books interval (collector :: done)
      { progress with succeeded := succeeded } where
  registered := List.cons_subset.mpr ⟨hcollector, hgathered.registered⟩
  written := hgathered.written
  covered := hgathered.covered
  entries := fun key hkey hall => hgathered.entries key hkey
    fun other hother => hall other (List.mem_cons_of_mem _ hother)
  times := hgathered.times
  sliced := by
    intro key horizon slices hsliced
    obtain ⟨other, hother, hkey⟩ := hgathered.sliced key horizon slices hsliced
    exact ⟨other, List.mem_cons_of_mem _ hother, hkey⟩
  failed := by
    intro key slice hfailed
    obtain ⟨hend, other, hother, hcause⟩ := hgathered.failed key slice hfailed
    exact ⟨hend, other, List.mem_cons_of_mem _ hother, hcause⟩
  unsuccessful := by
    intro key slice hfailed
    rcases hsucceeded with rfl | rfl
    · exact hgathered.unsuccessful key slice hfailed
    · rfl
  held := hgathered.held
  again := hgathered.again

theorem Gathered.exists_planned (hcollector : collector ∈ collectors.csv) (hnew : collector ∉ done)
    (hstarted : StartsInTime gathering collector books)
    (honTime : gathering.OnTime collectors books.finished)
    (hinterval : interval = calculateCollectionInterval gathering.now books.lastGather)
    (hfull : fullSyncEnabled collector (gathering.checkedAt collector) progress.entries =
      some fullSync)
    (hslices : slicesOf collector interval gathering.lowestDate fullSync progress.recorded =
      some slices) :
    ∃ start cur, Planned collectors gathering collector interval progress start cur slices := by
  by_cases hregular : collector.slicing = .hostMetricSlicing
  · exact planned_of_hostMetric hcollector hregular
      (hgathered.untouched hcollector (hgathered.first_of_hostMetric hcollector hnew hregular))
      hstarted (hinterval ▸ rfl) (honTime.2.2 collector hcollector).2 hfull hslices
  · refine ⟨_, _, planned_of_regular hregular ?_ hslices⟩
    refine (lastGather_le_of_started hregular hstarted).imp (fun hne => ?_) fun hle => hinterval ▸ hle
    obtain ⟨time, htime⟩ := Option.ne_none_iff_exists'.mp hne
    obtain ⟨time', htime'⟩ := hgathered.times _ ⟨time, recordedTime_eq_some_iff.mp htime⟩
    rw [hgathered.written, recordedTime_dump, htime']
    exact Option.some_ne_none _

end

theorem held_congr (hcollector : collector ∈ collectors.csv) (hkey : key ≠ collector.key)
    {entries entries' : Entries} {finished : ℤ}
    (hentries : ∀ key ≠ collector.key, entries' key = entries key)
    (hheld : Held collectors finished key (dump entries) limit) :
    Held collectors finished key (dump entries') limit := by
  have hsame : ∀ key ≠ collector.key, dump entries' key = dump entries key := by
    intro key hne
    rw [dump, dump, hentries key hne]
  refine hheld.imp (fun hall time htime => ?_) ?_
  · rw [recordedTime, hsame key hkey] at htime
    exact hall time htime
  · rintro ⟨other, hother, hotherKey, hhostMetric, hdue⟩
    refine ⟨other, hother, hotherKey, hhostMetric, ?_⟩
    have hfullKey : load (dump entries') other.fullKey = load (dump entries) other.fullKey := by
      rw [load, load, hsame _ (collectors.fullApart collector hcollector other hother).symm]
    rw [fullSyncEnabled_congr hfullKey, hdue]

theorem sliced_of_progress (configured : Bool) (horizon : ℤ)
    (hcareful : Careful collectors books gathering) (hcollector : collector ∈ collectors.csv)
    (slices : List (ℤ × ℤ)) (progress : Progress) :
    Sliced gathering collector slices progress
        (collectSlices gathering configured horizon collector slices progress).2 ∧
      ((collectSlices gathering configured horizon collector slices progress).1 ≠ .raised →
        Sliced.Complete collector progress
          (collectSlices gathering configured horizon collector slices progress).2) :=
  sliced_collectSlices hcareful hcollector (List.Subset.refl slices) (Sliced.refl progress)
    fun _ hfailed => .inl hfailed

theorem Gathered.sound_of_planned
    (hgathered : Gathered collectors gathering books interval done progress)
    (hsameKey : ∀ other ∈ done, other.key = collector.key → ∀ slice slice',
      Fails gathering other slice → ¬ Succeeds gathering collector slice')
    (hplanned : Planned collectors gathering collector interval progress start cur slices) :
    Sound collectors gathering books.history.flatten collector interval.horizon start cur slices
      (progress.note (.sliced collector.key interval.horizon slices)) := by
  refine ⟨hgathered.written, entriesAccounted_note hgathered.covered fun _ _ _ _ h =>
    Event.noConfusion h, hplanned.reaches, ?_, hplanned.held, ?_, ?_⟩
  · rcases hplanned.begins with rfl | rfl
    · exact .inl fun time htime => absurd (htime.1.trans_le htime.2) (lt_irrefl _)
    · exact .inr fun _ hslice => absurd hslice List.not_mem_nil
  · intro slice hfailed
    exact hgathered.held _ slice ((List.mem_cons.mp hfailed).resolve_left Event.noConfusion)
  · intro slice hfailed slice' _
    obtain ⟨-, other, hother, hkey, hfails⟩ := hgathered.failed _ slice
      ((List.mem_cons.mp hfailed).resolve_left Event.noConfusion)
    exact hsameKey other hother hkey slice slice' hfails

theorem Sliced.sliced_events {progress' : Progress} {horizon horizon' : ℤ}
    {slices' : List (ℤ × ℤ)}
    (hsliced : Sliced gathering collector slices
      (progress.note (.sliced collector.key horizon slices)) progress')
    (hevent : .sliced key horizon' slices' ∈ progress'.log) :
    (key = collector.key ∧ horizon' = horizon) ∨ .sliced key horizon' slices' ∈ progress.log := by
  rcases hsliced.events _ hevent with hold | hfrom
  · rcases List.mem_cons.mp hold with hsame | hold
    · obtain ⟨rfl, rfl, -⟩ := Event.sliced.inj hsame
      exact .inl ⟨rfl, rfl⟩
    · exact .inr hold
  · exact hfrom.elim

theorem Sliced.failed_events {progress' : Progress} {horizon : ℤ} {slice : ℤ × ℤ}
    (hsliced : Sliced gathering collector slices
      (progress.note (.sliced collector.key horizon slices)) progress')
    (hevent : .failed key slice ∈ progress'.log) :
    (key = collector.key ∧ slice ∈ slices ∧ Fails gathering collector slice) ∨
      .failed key slice ∈ progress.log := by
  rcases hsliced.events _ hevent with hold | hfrom
  · exact .inr ((List.mem_cons.mp hold).resolve_left Event.noConfusion)
  · exact .inl hfrom

theorem Gathered.collect (configured : Bool)
    (hgathered : Gathered collectors gathering books interval done progress)
    (hcareful : Careful collectors books gathering)
    (hcollector : collector ∈ collectors.csv)
    (hsameKey : ∀ other ∈ done, other.key = collector.key → ∀ slice slice',
      Fails gathering other slice → ¬ Succeeds gathering collector slice')
    (hplanned : Planned collectors gathering collector interval progress start cur slices)
    (hagain : ∀ slice ∈ pending collector.key books.history, ∀ time ∈ period slice.1 slice.2,
      interval.horizon < time →
        ∃ slices', (slices' = slices ∨
            .sliced collector.key interval.horizon slices' ∈ progress.log) ∧
          ∃ slice' ∈ slices', time ∈ period slice'.1 slice'.2)
    (succeeded : Bool) :
    let result := collectSlices gathering configured interval.horizon collector slices
      (progress.note (.sliced collector.key interval.horizon slices))
    (result.1 ≠ .raised ∧ succeeded = result.2.succeeded) ∨ succeeded = false →
      Gathered collectors gathering books interval (collector :: done)
        { result.2 with succeeded := succeeded } := by
  intro result hsucceeded
  obtain ⟨cur', hafter⟩ := sound_collectSlices hcareful hcollector
    hplanned.consecutive (hgathered.sound_of_planned hsameKey hplanned)
  obtain ⟨hsliced, hcomplete⟩ := sliced_of_progress configured interval.horizon hcareful
    hcollector slices (progress.note (.sliced collector.key interval.horizon slices))
  have hnoted : .sliced collector.key interval.horizon slices ∈ result.2.log :=
    hsliced.kept List.mem_cons_self
  have hkept : progress.log ⊆ result.2.log :=
    fun event hevent => hsliced.kept (List.mem_cons_of_mem _ hevent)
  refine ⟨List.cons_subset.mpr ⟨hcollector, hgathered.registered⟩, hafter.written, hafter.covered,
    ?_, ?_, ?_, ?_, ?_, ?_, ?_⟩
  · intro key hjson hall
    rw [← hgathered.entries key hjson]
    · exact hsliced.entries key (hall collector List.mem_cons_self ⟨_, _, hnoted⟩).1
    · rintro other hother ⟨horizon, slices', hevent⟩
      exact hall other (List.mem_cons_of_mem _ hother) ⟨horizon, slices', hkept hevent⟩
  · exact fun key htime => hsliced.times key (hgathered.times key htime)
  · intro key horizon slices' hevent
    rcases hsliced.sliced_events hevent with ⟨rfl, -⟩ | hold
    · exact ⟨collector, List.mem_cons_self, rfl⟩
    · obtain ⟨other, hother, hkey⟩ := hgathered.sliced key horizon slices' hold
      exact ⟨other, List.mem_cons_of_mem _ hother, hkey⟩
  · intro key slice hevent
    rcases hsliced.failed_events hevent with ⟨rfl, hslice, hfails⟩ | hold
    · exact ⟨hplanned.consecutive.stop_le slice hslice, collector, List.mem_cons_self, rfl, hfails⟩
    · obtain ⟨hend, other, hother, hcause⟩ := hgathered.failed key slice hold
      exact ⟨hend, other, List.mem_cons_of_mem _ hother, hcause⟩
  · intro key slice hevent
    rcases hsucceeded with ⟨hne, rfl⟩ | rfl
    · rcases hsliced.failed_events hevent with ⟨rfl, -, -⟩ | hold
      · rcases hcomplete hne slice hevent with hold | hfalse
        · exact hsliced.sticky (hgathered.unsuccessful _ slice
            ((List.mem_cons.mp hold).resolve_left Event.noConfusion))
        · exact hfalse
      · exact hsliced.sticky (hgathered.unsuccessful key slice hold)
    · rfl
  · intro key slice hevent
    by_cases hkey : key = collector.key
    · subst hkey
      exact hafter.due slice hevent
    · have hold := (hsliced.failed_events hevent).resolve_left fun hnew => hkey hnew.1
      have hheld := hgathered.held key slice hold
      rw [hgathered.written] at hheld
      rw [hafter.written]
      exact held_congr hcollector hkey hsliced.entries hheld
  · intro key horizon slices' hevent
    rcases hsliced.sliced_events hevent with ⟨rfl, rfl⟩ | hold
    · refine ⟨rfl, fun slice hslice time htime hhorizon => ?_⟩
      obtain ⟨slices', hfrom, hcovers⟩ := hagain slice hslice time htime hhorizon
      rcases hfrom with rfl | hfrom
      · exact ⟨slices', hnoted, hcovers⟩
      · exact ⟨slices', hkept hfrom, hcovers⟩
    · obtain ⟨hsame, hall⟩ := hgathered.again key horizon slices' hold
      refine ⟨hsame, fun slice hslice time htime hhorizon => ?_⟩
      obtain ⟨slices', hfrom, hcovers⟩ := hall slice hslice time htime hhorizon
      exact ⟨slices', hkept hfrom, hcovers⟩

theorem Gathered.markSynced (hgathered : Gathered collectors gathering books interval done progress)
    (hcollector : collector ∈ done)
    (hsliced : ∃ horizon slices, .sliced collector.key horizon slices ∈ progress.log)
    (hsucceeded : progress.succeeded = true) (time : ℤ) :
    Gathered collectors gathering books interval done
      (progress.write (Function.update progress.entries collector.fullKey (some (.time time)))) :=
  { hgathered with
    written := rfl
    entries := by
      intro key hjson hall
      rw [← hgathered.entries key hjson hall]
      exact Function.update_of_ne (hall collector hcollector hsliced).2 _ _
    times := by
      intro key htime
      by_cases hkey : key = collector.fullKey
      · subst hkey
        exact ⟨time, Function.update_self _ _ _⟩
      · obtain ⟨entry, hentry⟩ := hgathered.times key htime
        exact ⟨entry, (Function.update_of_ne hkey _ _).trans hentry⟩
    held := by
      intro key slice hfailed
      rw [hgathered.unsuccessful key slice hfailed] at hsucceeded
      exact absurd hsucceeded Bool.false_ne_true }

theorem Gathered.collectTable (configured : Bool)
    (hgathered : Gathered collectors gathering books interval done progress)
    (hkept : Bookkept collectors books) (hcareful : Careful collectors books gathering)
    (honTime : gathering.OnTime collectors books.finished)
    (hinterval : interval = calculateCollectionInterval gathering.now books.lastGather)
    (hcollector : collector ∈ collectors.csv) (hnew : collector ∉ done)
    (hsameKey : ∀ other ∈ done, other.key = collector.key → ∀ slice slice',
      Fails gathering other slice → ¬ Succeeds gathering collector slice') :
    Gathered collectors gathering books interval (collector :: done)
      (collectTable gathering configured interval collector progress).2 := by
  rw [Analytics.collectTable]
  split
  · exact hgathered.mono hcollector false (.inr rfl)
  · next fullSync hfull =>
    split
    · exact hgathered.mono hcollector false (.inr rfl)
    · next slices hslices =>
      have hstarted := hcareful.started collector hcollector
      obtain ⟨start, cur, hplanned⟩ := hgathered.exists_planned hcollector hnew hstarted honTime
        hinterval hfull hslices
      have hagain : ∀ slice ∈ pending collector.key books.history,
          ∀ time ∈ period slice.1 slice.2, interval.horizon < time →
            ∃ slices', (slices' = slices ∨
                .sliced collector.key interval.horizon slices' ∈ progress.log) ∧
              ∃ slice' ∈ slices', time ∈ period slice'.1 slice'.2 := by
        intro slice hslice time htime hhorizon
        by_cases hfirst : ∃ horizon slices, .sliced collector.key horizon slices ∈ progress.log
        · obtain ⟨horizon, slices', hsliced⟩ := hfirst
          obtain ⟨slices', hnoted, hcovers⟩ :=
            (hgathered.again _ _ _ hsliced).2 slice hslice time htime hhorizon
          exact ⟨slices', .inr hnoted, hcovers⟩
        · have huntouched := hgathered.untouched hcollector
            fun horizon slices hsliced => hfirst ⟨horizon, slices, hsliced⟩
          exact ⟨slices, .inl rfl, exists_slice_of_pending hkept hcollector huntouched hstarted
            honTime hinterval hfull hslices hslice htime hhorizon⟩
      have hcollect := hgathered.collect configured hcareful hcollector hsameKey
        hplanned hagain
      dsimp only
      split
      · next hreturned =>
        exact hcollect _ (.inl ⟨hreturned ▸ fun hsame => Outcome.noConfusion hsame, rfl⟩)
      · exact hcollect false (.inr rfl)
      · next hdone =>
        have hafter := hcollect _ (.inl ⟨hdone ▸ fun hsame => Outcome.noConfusion hsame, rfl⟩)
        split
        · next hfullSync =>
          obtain ⟨-, hsucceeded⟩ := Bool.and_eq_true_iff.mp hfullSync
          have hsliced := (sliced_of_progress configured interval.horizon hcareful hcollector slices
            (progress.note (.sliced collector.key interval.horizon slices))).1
          exact hafter.markSynced List.mem_cons_self
            ⟨interval.horizon, slices, hsliced.kept List.mem_cons_self⟩ hsucceeded _
        · exact hafter

theorem Gathered.collectTables {rest : List CsvCollector}
    (hgathered : Gathered collectors gathering books interval done progress)
    (hkept : Bookkept collectors books) (hcareful : Careful collectors books gathering)
    (honTime : gathering.OnTime collectors books.finished)
    (hinterval : interval = calculateCollectionInterval gathering.now books.lastGather)
    (hrest : rest ⊆ collectors.csv) (hnodup : rest.Nodup) (hdisjoint : ∀ other ∈ done, other ∉ rest)
    (hsameKey : ∀ other ∈ done, ∀ collector ∈ rest, other.key = collector.key →
      ∀ slice slice', Fails gathering other slice → ¬ Succeeds gathering collector slice')
    (hpairwise : rest.Pairwise fun collector other => collector.key = other.key →
      ∀ slice slice', Fails gathering collector slice → ¬ Succeeds gathering other slice') :
    ∃ done', Gathered collectors gathering books interval done'
      (collectTables gathering configured interval rest progress).2 := by
  induction rest generalizing done progress with
  | nil => exact ⟨done, hgathered⟩
  | cons collector rest ih =>
    obtain ⟨hcollector, hrest⟩ := List.cons_subset.mp hrest
    obtain ⟨hfresh, hnodup⟩ := List.nodup_cons.mp hnodup
    obtain ⟨hlater, hpairwise⟩ := List.pairwise_cons.mp hpairwise
    have hstep := hgathered.collectTable configured hkept hcareful honTime hinterval
      hcollector (fun hdone => hdisjoint collector hdone List.mem_cons_self)
      fun other hother => hsameKey other hother collector List.mem_cons_self
    rw [Analytics.collectTables]
    split
    · apply ih hstep hrest hnodup _ _ hpairwise
      · intro other hother hmem
        rcases List.mem_cons.mp hother with rfl | hdone
        · exact hfresh hmem
        · exact hdisjoint other hdone (List.mem_cons_of_mem _ hmem)
      · intro other hother later hmem
        rcases List.mem_cons.mp hother with rfl | hdone
        · exact hlater later hmem
        · exact hsameKey other hdone later (List.mem_cons_of_mem _ hmem)
    · exact ⟨_, hstep⟩

end Forail.Analytics
