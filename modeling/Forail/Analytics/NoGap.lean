import Forail.Analytics.Gather
import Forail.Core.Runs

/-!
# Analytics without gaps

The last entry of a table is to move on only over periods that were shipped or reported
empty, and a slice that failed is to be collected again.  A file that is not packaged is
passed over, and the slices after a failed one move the entry over it.
-/

namespace Forail.Analytics

open Forail.Slices

/-! ## The property -/

def Accounted (key : String) (time : ℤ) (log : List Event) : Prop :=
  ∃ slice, .collected key slice ∈ log ∧ time ∈ period slice.1 slice.2

def Event.isSliced (key : String) : Event → Bool
  | .sliced other _ _ => decide (other = key)
  | _ => false

def Event.failedSlice (key : String) : Event → Option (ℤ × ℤ)
  | .failed other slice => if other = key then some slice else none
  | _ => none

/-- The slices that failed when a table was sliced the last time. -/
def pending (key : String) : List (List Event) → List (ℤ × ℤ)
  | [] => []
  | run :: before =>
      if run.any (Event.isSliced key) then run.filterMap (Event.failedSlice key)
      else pending key before

/-- An entry has only moved on over periods behind the horizon that are accounted for. -/
def EntriesAccounted (run : List Event) (before : List Event) : Prop :=
  ∀ later earlier key previous horizon entry,
    run = later ++ .advanced key previous horizon entry :: earlier →
      ∀ time, (∀ recorded, previous = some recorded → recorded < time) → horizon < time →
        time ≤ entry → Accounted key time (earlier ++ before)

def CollectedAgain (run : List Event) (before : List (List Event)) : Prop :=
  ∀ key horizon slices, .sliced key horizon slices ∈ run → ∀ slice ∈ pending key before,
    ∀ time ∈ period slice.1 slice.2, horizon < time →
      ∃ slices', .sliced key horizon slices' ∈ run ∧
        ∃ slice' ∈ slices', time ∈ period slice'.1 slice'.2

structure NoGap (history : List (List Event)) : Prop where
  accounted : ∀ after run before, history = after ++ run :: before →
    EntriesAccounted run before.flatten
  again : ∀ after run before, history = after ++ run :: before → CollectedAgain run before

/-! ## The condition -/

/-- A slice fails when a file of it was packaged and not accepted. -/
def Fails (gathering : Gathering) (collector : CsvCollector) (slice : ℤ × ℤ) : Prop :=
  ∃ files, gathering.collect collector slice = some files ∧
    ∃ file ∈ files, file.packaged = true ∧ file.upload ≠ .accepted

def Succeeds (gathering : Gathering) (collector : CsvCollector) (slice : ℤ × ℤ) : Prop :=
  ∃ files, gathering.collect collector slice = some files ∧
    ∀ file ∈ files, file.packaged = true → file.upload = .accepted

/-- Where a collection starts at the latest, at the recorded time or at the horizon. -/
def latestStart (recorded : String → Option Recorded) (key : String) (horizon : ℤ) : ℤ :=
  max ((recordedTime recorded key).getD horizon) horizon

/-- The collection of a table starts where the last one ended, or at the horizon. -/
def StartsInTime (gathering : Gathering) (collector : CsvCollector) (books : Bookkeeping) :
    Prop :=
  match collector.slicing with
  | .hostMetricSlicing =>
      fullSyncEnabled collector (gathering.checkedAt collector) (load books.lastEntries) =
          some true ∨ books.lastEntries collector.key = none →
        match gathering.lowestDate with
        | some start =>
            start ≤ latestStart books.lastEntries collector.key (gathering.now - fourWeeks) ∧
              ∀ slice ∈ pending collector.key books.history,
                start ≤ max slice.1 (gathering.now - fourWeeks)
        | none => pending collector.key books.history = []
  | _ =>
      recordedTime books.lastEntries collector.key ≠ none ∨
        ∀ time, books.lastGather = some time → time ≤ gathering.now - fourWeeks

/-- All files of a slice that does not fail are packaged, no slice of a table succeeds after
one that failed, and collections start in time. -/
structure Careful (collectors : Collectors) (books : Bookkeeping) (gathering : Gathering) :
    Prop where
  packaged : ∀ collector ∈ collectors.csv, ∀ slice files,
    gathering.collect collector slice = some files → ¬ Fails gathering collector slice →
      ∀ file ∈ files, file.packaged = true
  ordered : ∀ collector ∈ collectors.csv, ∀ slice slice', Fails gathering collector slice →
    Succeeds gathering collector slice' → slice'.2 ≤ slice.1
  sameKey : collectors.csv.Pairwise fun collector other => collector.key = other.key →
    ∀ slice slice', Fails gathering collector slice → ¬ Succeeds gathering other slice'
  started : ∀ collector ∈ collectors.csv, StartsInTime gathering collector books

variable {gathering : Gathering} {collectors : Collectors} {collector : CsvCollector}
  {configured : Bool} {horizon start cur limit time : ℤ} {slice : ℤ × ℤ}
  {slices : List (ℤ × ℤ)} {files : List File} {key : String} {progress : Progress}
  {log before : List Event} {event : Event} {books : Bookkeeping} {interval : Interval}

/-! ## Files -/

theorem shipFiles_eq_accepted_iff :
    shipFiles files = .accepted ↔
      ∀ file ∈ files, file.packaged = true → file.upload = .accepted := by
  induction files with
  | nil => exact ⟨fun _ _ hmem => absurd hmem List.not_mem_nil, fun _ => rfl⟩
  | cons file files ih =>
    rw [shipFiles, List.forall_mem_cons, ← ih]
    cases hpackaged : file.packaged with
    | false => simp
    | true => cases hupload : file.upload <;> simp

theorem succeeds_iff (hfiles : gathering.collect collector slice = some files) :
    Succeeds gathering collector slice ↔ shipFiles files = .accepted := by
  rw [shipFiles_eq_accepted_iff, Succeeds]
  simp [hfiles]

theorem fails_iff (hfiles : gathering.collect collector slice = some files) :
    Fails gathering collector slice ↔ shipFiles files ≠ .accepted := by
  rw [Ne, shipFiles_eq_accepted_iff, Fails]
  simp [hfiles]

theorem Careful.shipped (hcareful : Careful collectors books gathering)
    (hcollector : collector ∈ collectors.csv)
    (hfiles : gathering.collect collector slice = some files)
    (haccepted : shipFiles files = .accepted) : ∀ file ∈ files, file.Shipped := by
  intro file hfile
  have hpackaged := hcareful.packaged collector hcollector slice files hfiles
    ((fails_iff hfiles).not.mpr (not_not_intro haccepted)) file hfile
  exact ⟨hpackaged, shipFiles_eq_accepted_iff.mp haccepted file hfile hpackaged⟩

/-! ## Entries -/

theorem recordedTime_dump (entries : Entries) (key : String) :
    recordedTime (dump entries) key = match entries key with
      | some (.time time) => some (time / 1000 * 1000)
      | _ => none := by
  rw [recordedTime, dump]
  cases entries key with
  | none => rfl
  | some entry => cases entry <;> rfl

theorem dump_load (recorded : String → Option Recorded) : dump (load recorded) = recorded := by
  funext key
  rw [dump, load]
  cases recorded key with
  | none => rfl
  | some entry => cases entry <;> simp [Recorded.load, Entry.dump]

theorem floor_le (time : ℤ) : time / 1000 * 1000 ≤ time := by omega

theorem floor_mono {earlier later : ℤ} (hle : earlier ≤ later) :
    earlier / 1000 * 1000 ≤ later / 1000 * 1000 := by omega

/-! ## Logs -/

theorem Accounted.mono {log' : List Event} (haccounted : Accounted key time log)
    (hsubset : log ⊆ log') : Accounted key time log' := by
  obtain ⟨slice, hslice, htime⟩ := haccounted
  exact ⟨slice, hsubset hslice, htime⟩

theorem entriesAccounted_nil : EntriesAccounted [] before := by
  intro later earlier key previous horizon entry hsplit
  exact absurd hsplit.symm (List.append_ne_nil_of_right_ne_nil later (List.cons_ne_nil _ _))

theorem entriesAccounted_cons (hlog : EntriesAccounted log before)
    (hevent : ∀ key previous horizon entry, event = .advanced key previous horizon entry →
      ∀ time, (∀ recorded, previous = some recorded → recorded < time) → horizon < time →
        time ≤ entry → Accounted key time (log ++ before)) :
    EntriesAccounted (event :: log) before := by
  intro later earlier key previous horizon entry hsplit
  cases later with
  | nil =>
    obtain ⟨rfl, rfl⟩ := List.cons.inj hsplit
    exact hevent key previous horizon entry rfl
  | cons first later =>
    obtain ⟨-, hrest⟩ := List.cons.inj hsplit
    exact hlog later earlier key previous horizon entry hrest

theorem entriesAccounted_note (hlog : EntriesAccounted log before)
    (hother : ∀ key previous horizon entry, event ≠ .advanced key previous horizon entry) :
    EntriesAccounted (event :: log) before :=
  entriesAccounted_cons hlog fun key previous horizon entry hsame =>
    absurd hsame (hother key previous horizon entry)

/-! ## The slices of a table -/

section

variable (collectors : Collectors) (finished : ℤ) (key : String)
  (recorded : String → Option Recorded)

def FullDue : Prop :=
  ∃ collector ∈ collectors.csv, collector.key = key ∧
    collector.slicing = .hostMetricSlicing ∧
      fullSyncEnabled collector finished (load recorded) = some true

/-- The entry of a table has not moved over a time, or all of it will be collected. -/
def Held (limit : ℤ) : Prop :=
  (∀ time, recordedTime recorded key = some time → time ≤ limit) ∨
    FullDue collectors finished key recorded

end

structure Sound (collectors : Collectors) (gathering : Gathering) (before : List Event)
    (collector : CsvCollector) (horizon start cur : ℤ) (slices : List (ℤ × ℤ))
    (progress : Progress) : Prop where
  written : progress.recorded = dump progress.entries
  covered : EntriesAccounted progress.log before
  reaches : ∀ time, (∀ recorded, recordedTime progress.recorded collector.key = some recorded →
    recorded < time) → horizon < time → start < time
  accounted : (∀ time ∈ period start cur, Accounted collector.key time progress.log) ∨
    ∀ slice ∈ slices, ¬ Succeeds gathering collector slice
  held : Held collectors gathering.finished collector.key progress.recorded cur
  due : ∀ slice, .failed collector.key slice ∈ progress.log →
    Held collectors gathering.finished collector.key progress.recorded slice.1
  blocked : ∀ slice, .failed collector.key slice ∈ progress.log →
    ∀ slice' ∈ slices, ¬ Succeeds gathering collector slice'

theorem Held.mono {limit' : ℤ} {finished : ℤ} {recorded : String → Option Recorded}
    (hheld : Held collectors finished key recorded limit) (hle : limit ≤ limit') :
    Held collectors finished key recorded limit' :=
  hheld.imp_left fun hall time htime => (hall time htime).trans hle

theorem fullSyncEnabled_congr {entries entries' : Entries} {finished : ℤ}
    (hsame : entries' collector.fullKey = entries collector.fullKey) :
    fullSyncEnabled collector finished entries' = fullSyncEnabled collector finished entries := by
  rw [fullSyncEnabled, fullSyncEnabled, hsame]

/-- A recorded time is the floor of an entry, which the next one is not before; without one the
next entry is the end of the slice. -/
theorem nextEntry_cases (hwritten : progress.recorded = dump progress.entries) (stop : ℤ) :
    (∃ entry, recordedTime progress.recorded key = some (entry / 1000 * 1000) ∧
      progress.nextEntry key stop = max entry stop) ∨
    recordedTime progress.recorded key = none ∧ progress.nextEntry key stop = stop := by
  have hentries : ∀ found, progress.entries key = found →
      (∃ entry, recordedTime progress.recorded key = some (entry / 1000 * 1000) ∧
        progress.nextEntry key stop = max entry stop) ∨
      recordedTime progress.recorded key = none ∧ progress.nextEntry key stop = stop := by
    intro found hfound
    rw [hwritten, recordedTime_dump, Progress.nextEntry, hfound]
    match found with
    | some (.time entry) => exact Or.inl ⟨entry, rfl, rfl⟩
    | some .other => exact Or.inr ⟨rfl, rfl⟩
    | none => exact Or.inr ⟨rfl, rfl⟩
  exact hentries _ rfl

theorem recorded_le_nextEntry (hwritten : progress.recorded = dump progress.entries)
    {recorded : ℤ} (hrecorded : recordedTime progress.recorded key = some recorded) (stop : ℤ) :
    recorded ≤ progress.nextEntry key stop / 1000 * 1000 := by
  rcases nextEntry_cases hwritten stop with ⟨entry, hentry, hnext⟩ | ⟨hnone, -⟩
  · rw [hnext]
    obtain rfl := Option.some.inj (hentry.symm.trans hrecorded)
    exact floor_mono (le_max_left _ _)
  · exact absurd (hrecorded.symm.trans hnone) (Option.some_ne_none _)

theorem exists_recorded_of_lt (hwritten : progress.recorded = dump progress.entries) {stop : ℤ}
    (hstop : stop < time) (htime : time ≤ progress.nextEntry key stop / 1000 * 1000) :
    ∃ recorded, recordedTime progress.recorded key = some recorded ∧ time ≤ recorded := by
  rcases nextEntry_cases hwritten stop with ⟨entry, hentry, hnext⟩ | ⟨-, hnext⟩
  · refine ⟨entry / 1000 * 1000, hentry, ?_⟩
    rw [hnext] at htime
    rcases le_total entry stop with hle | hle
    · rw [max_eq_right hle] at htime
      exact absurd (htime.trans (floor_le stop)) (not_le.mpr hstop)
    · rwa [max_eq_left hle] at htime
  · rw [hnext] at htime
    exact absurd (htime.trans (floor_le stop)) (not_le.mpr hstop)

theorem fullDue_update (hcollector : collector ∈ collectors.csv) {entries : Entries}
    {finished : ℤ} (entry : Option Entry) :
    FullDue collectors finished collector.key
        (dump (Function.update entries collector.key entry)) ↔
      FullDue collectors finished collector.key (dump entries) := by
  refine exists_congr fun other => and_congr_right fun hother => ?_
  rw [fullSyncEnabled_congr]
  have hne : other.fullKey ≠ collector.key :=
    (collectors.fullApart collector hcollector other hother).symm
  rw [load, load, dump, dump, Function.update_of_ne hne]

theorem Sound.advance (hcollector : collector ∈ collectors.csv)
    (hsound : Sound collectors gathering before collector horizon start cur
      ((cur, limit) :: slices) progress)
    (hsucceeds : Succeeds gathering collector (cur, limit)) :
    Sound collectors gathering before collector horizon start (max cur limit) slices
      ((progress.note (.collected collector.key (cur, limit))).advance collector.key horizon
        limit) := by
  have hnone : ∀ slice, .failed collector.key slice ∉ progress.log := fun slice hfailed =>
    hsound.blocked slice hfailed _ List.mem_cons_self hsucceeds
  have hnone' : ∀ slice, .failed collector.key slice ∉
      ((progress.note (.collected collector.key (cur, limit))).advance collector.key horizon
        limit).log := by
    intro slice hfailed
    rcases List.mem_cons.mp hfailed with hsame | hfailed
    · exact Event.noConfusion hsame
    · rcases List.mem_cons.mp hfailed with hsame | hfailed
      · exact Event.noConfusion hsame
      · exact hnone slice hfailed
  have haccounted : ∀ time ∈ period start cur, Accounted collector.key time progress.log :=
    hsound.accounted.resolve_right fun hall => hall _ List.mem_cons_self hsucceeds
  have hslice : ∀ time ∈ period start (max cur limit), Accounted collector.key time
      (.collected collector.key (cur, limit) :: progress.log) := by
    intro time htime
    by_cases hcur : time ≤ cur
    · exact (haccounted time ⟨htime.1, hcur⟩).mono (List.subset_cons_self _ _)
    · refine ⟨(cur, limit), List.mem_cons_self, not_le.mp hcur, ?_⟩
      exact (le_max_iff.mp htime.2).resolve_left hcur
  have hwritten : (progress.note (.collected collector.key (cur, limit))).recorded =
      dump (progress.note (.collected collector.key (cur, limit))).entries := hsound.written
  refine ⟨rfl, ?_, ?_, .inl ?_, ?_, ?_, ?_⟩
  · refine entriesAccounted_cons (entriesAccounted_note hsound.covered fun _ _ _ _ h =>
      Event.noConfusion h) ?_
    intro key previous horizon' entry hevent time hprevious hhorizon hentry
    obtain ⟨rfl, rfl, rfl, rfl⟩ := Event.advanced.inj hevent
    have hstart : start < time := hsound.reaches time hprevious hhorizon
    apply Accounted.mono (hslice time ⟨hstart, ?_⟩) (List.subset_append_left _ _)
    by_contra hlater
    obtain ⟨-, hlimit⟩ := max_lt_iff.mp (not_le.mp hlater)
    obtain ⟨recorded, hrecorded, hle⟩ := exists_recorded_of_lt hwritten hlimit hentry
    exact absurd (hprevious recorded hrecorded) (not_lt.mpr hle)
  · intro time hrecorded hhorizon
    apply hsound.reaches time _ hhorizon
    intro recorded hold
    refine (recorded_le_nextEntry hwritten hold limit).trans_lt ?_
    apply hrecorded
    change recordedTime (dump (Function.update _ _ _)) collector.key = _
    rw [recordedTime_dump, Function.update_self]
  · intro time htime
    exact (hslice time htime).mono (List.subset_cons_self _ _)
  · have hheld := hsound.held
    rw [hsound.written] at hheld
    refine hheld.imp (fun hall time htime => ?_) fun hfull => ?_
    · change recordedTime (dump (Function.update _ _ _)) _ = _ at htime
      rw [recordedTime_dump, Function.update_self] at htime
      obtain rfl := Option.some.inj htime
      rw [Progress.nextEntry]
      split
      · next entry hentry =>
        have hentry' : progress.entries collector.key = some (.time entry) := hentry
        have hold := hall (entry / 1000 * 1000) (by rw [recordedTime_dump, hentry'])
        omega
      · exact (floor_le limit).trans (le_max_right _ _)
    · exact (fullDue_update hcollector _).mpr hfull
  · exact fun slice hfailed => absurd hfailed (hnone' slice)
  · exact fun slice hfailed => absurd hfailed (hnone' slice)

theorem Sound.fail (hsound : Sound collectors gathering before collector horizon start cur
      ((cur, limit) :: slices) progress) {stop : ℤ} (hle : cur ≤ stop)
    (hblocked : ∀ slice ∈ slices, ¬ Succeeds gathering collector slice) (succeeded : Bool) :
    Sound collectors gathering before collector horizon start stop slices
      { progress.note (.failed collector.key (cur, limit)) with succeeded := succeeded } where
  written := hsound.written
  covered := entriesAccounted_note hsound.covered fun _ _ _ _ h => Event.noConfusion h
  reaches := hsound.reaches
  accounted := .inr hblocked
  held := hsound.held.mono hle
  due := by
    intro slice hfailed
    rcases List.mem_cons.mp hfailed with hsame | hfailed
    · obtain ⟨-, rfl⟩ := Event.failed.inj hsame
      exact hsound.held
    · exact hsound.due slice hfailed
  blocked := fun _ _ => hblocked

theorem Sound.done (hsound : Sound collectors gathering before collector horizon start cur
    slices progress) : Sound collectors gathering before collector horizon start cur [] progress :=
  { hsound with
    accounted := .inr fun _ hslice => absurd hslice List.not_mem_nil
    blocked := fun _ _ _ hslice => absurd hslice List.not_mem_nil }

theorem sound_collectSlices (hcareful : Careful collectors books gathering)
    (hcollector : collector ∈ collectors.csv) (hslices : Consecutive limit cur slices)
    (hsound : Sound collectors gathering before collector horizon start cur slices progress) :
    ∃ cur', Sound collectors gathering before collector horizon start cur' []
      (collectSlices gathering configured horizon collector slices progress).2 := by
  induction slices generalizing cur progress with
  | nil => exact ⟨cur, hsound⟩
  | cons slice slices ih =>
    obtain ⟨stop, rfl, hle, hrest, hlater⟩ : ∃ stop, slice = (cur, stop) ∧
        (cur ≤ stop ∨ slices = []) ∧ Consecutive limit (max cur stop) slices ∧
          ∀ slice' ∈ slices, cur < slice'.2 := by
      cases hslices with
      | last =>
        exact ⟨limit, rfl, .inr rfl, .nil (le_max_right _ _),
          fun _ hslice => absurd hslice List.not_mem_nil⟩
      | @cons _ stop _ hlt hle hrest =>
        refine ⟨stop, rfl, .inl hlt.le, (max_eq_right hlt.le).symm ▸ hrest, fun slice' hslice => ?_⟩
        exact hlt.trans_le (hrest.le_stop hle slice' hslice)
    have hblocked : Fails gathering collector (cur, stop) →
        ∀ slice' ∈ slices, ¬ Succeeds gathering collector slice' :=
      fun hfails slice' hslice hsucceeds => (hlater slice' hslice).not_ge
        (hcareful.ordered collector hcollector _ _ hfails hsucceeds)
    rw [collectSlices.eq_def]
    dsimp only
    split
    · exact ⟨cur, hsound.done⟩
    · next hfiles =>
      exact ih hrest (hsound.advance hcollector ((succeeds_iff hfiles).mpr rfl))
    · next files _ hfiles =>
      split
      · split
        · next haccepted =>
          rw [if_pos (hcareful.shipped hcollector hfiles haccepted)]
          exact ih hrest (hsound.advance hcollector ((succeeds_iff hfiles).mpr haccepted))
        · next hrefused =>
          have hfails : Fails gathering collector (cur, stop) := by
            rw [fails_iff hfiles, hrefused]
            exact Upload.noConfusion
          exact ih hrest (hsound.fail (le_max_left _ _) (hblocked hfails) false)
        · next hraised =>
          have hfails : Fails gathering collector (cur, stop) := by
            rw [fails_iff hfiles, hraised]
            exact Upload.noConfusion
          exact ⟨cur, (hsound.fail le_rfl (hblocked hfails) progress.succeeded).done⟩
      · exact ⟨cur, hsound.done⟩

def Event.From (gathering : Gathering) (collector : CsvCollector) (slices : List (ℤ × ℤ)) :
    Event → Prop
  | .sliced _ _ _ => False
  | .collected key _ => key = collector.key
  | .failed key slice => key = collector.key ∧ slice ∈ slices ∧ Fails gathering collector slice
  | .advanced key _ _ _ => key = collector.key

structure Sliced (gathering : Gathering) (collector : CsvCollector) (slices : List (ℤ × ℤ))
    (progress progress' : Progress) : Prop where
  entries : ∀ key ≠ collector.key, progress'.entries key = progress.entries key
  times : ∀ key, (∃ time, progress.entries key = some (.time time)) →
    ∃ time, progress'.entries key = some (.time time)
  events : ∀ event ∈ progress'.log, event ∈ progress.log ∨ event.From gathering collector slices
  kept : progress.log ⊆ progress'.log
  sticky : progress.succeeded = false → progress'.succeeded = false

def Sliced.Complete (collector : CsvCollector) (progress progress' : Progress) : Prop :=
  ∀ slice, .failed collector.key slice ∈ progress'.log →
    .failed collector.key slice ∈ progress.log ∨ progress'.succeeded = false

theorem Sliced.refl (progress : Progress) : Sliced gathering collector slices progress progress :=
  ⟨fun _ _ => rfl, fun _ htime => htime, fun _ hevent => .inl hevent, List.Subset.refl _, id⟩

theorem Sliced.advance {progress' : Progress}
    (hsliced : Sliced gathering collector slices progress progress') (slice : ℤ × ℤ)
    (horizon stop : ℤ) : Sliced gathering collector slices progress
      ((progress'.note (.collected collector.key slice)).advance collector.key horizon stop) where
  entries := by
    intro key hkey
    exact (Function.update_of_ne hkey _ _).trans (hsliced.entries key hkey)
  times := by
    intro key htime
    by_cases hkey : key = collector.key
    · subst hkey
      exact ⟨_, Function.update_self _ _ _⟩
    · obtain ⟨time, htime⟩ := hsliced.times key htime
      exact ⟨time, (Function.update_of_ne hkey _ _).trans htime⟩
  events := by
    intro event hevent
    rcases List.mem_cons.mp hevent with rfl | hevent
    · exact .inr rfl
    · rcases List.mem_cons.mp hevent with rfl | hevent
      · exact .inr rfl
      · exact hsliced.events event hevent
  kept := fun _ hevent => List.mem_cons_of_mem _ (List.mem_cons_of_mem _ (hsliced.kept hevent))
  sticky := hsliced.sticky

theorem Sliced.fail {progress' : Progress}
    (hsliced : Sliced gathering collector slices progress progress') (hslice : slice ∈ slices)
    (hfails : Fails gathering collector slice) :
    Sliced gathering collector slices progress
      (progress'.note (.failed collector.key slice)) where
  entries := hsliced.entries
  times := hsliced.times
  events := by
    intro event hevent
    rcases List.mem_cons.mp hevent with rfl | hevent
    · exact .inr ⟨rfl, hslice, hfails⟩
    · exact hsliced.events event hevent
  kept := fun _ hevent => List.mem_cons_of_mem _ (hsliced.kept hevent)
  sticky := hsliced.sticky

theorem sliced_collectSlices (hcareful : Careful collectors books gathering)
    (hcollector : collector ∈ collectors.csv) {rest : List (ℤ × ℤ)} (hsubset : rest ⊆ slices)
    {progress' : Progress} (hsliced : Sliced gathering collector slices progress progress')
    (hcomplete : Sliced.Complete collector progress progress') :
    Sliced gathering collector slices progress
        (collectSlices gathering configured horizon collector rest progress').2 ∧
      ((collectSlices gathering configured horizon collector rest progress').1 ≠ .raised →
        Sliced.Complete collector progress
          (collectSlices gathering configured horizon collector rest progress').2) := by
  induction rest generalizing progress' with
  | nil => exact ⟨hsliced, fun _ => hcomplete⟩
  | cons slice rest ih =>
    obtain ⟨hslice, hrest⟩ := List.cons_subset.mp hsubset
    have hadvanced := ih hrest (hsliced.advance slice horizon slice.2) (by
      intro slice' hfailed
      rcases List.mem_cons.mp hfailed with hsame | hfailed
      · exact Event.noConfusion hsame
      · rcases List.mem_cons.mp hfailed with hsame | hfailed
        · exact Event.noConfusion hsame
        · exact hcomplete slice' hfailed)
    rw [collectSlices.eq_def]
    dsimp only
    split
    · exact ⟨hsliced, fun hne => absurd rfl hne⟩
    · exact hadvanced
    · next files _ hfiles =>
      split
      · split
        · next haccepted =>
          rw [if_pos (hcareful.shipped hcollector hfiles haccepted)]
          exact hadvanced
        · next hrefused =>
          have hfails : Fails gathering collector slice := by
            rw [fails_iff hfiles, hrefused]
            exact Upload.noConfusion
          have hfailed := hsliced.fail hslice hfails
          exact ih hrest ⟨hfailed.entries, hfailed.times, hfailed.events, hfailed.kept, fun _ => rfl⟩
            fun _ _ => .inr rfl
        · next hraised =>
          have hfails : Fails gathering collector slice := by
            rw [fails_iff hfiles, hraised]
            exact Upload.noConfusion
          exact ⟨hsliced.fail hslice hfails, fun hne => absurd rfl hne⟩
      · exact ⟨hsliced, fun _ => hcomplete⟩

end Forail.Analytics
