import Forail.Core.Slices
import Mathlib.Data.Option.Basic
import Mathlib.Logic.Function.Basic

/-!
# Gathering analytics

A scheduled run of `gather` collects the data of every collector since its last entry and
ships it, slice by slice for the collectors that write tables.  Times are counted in
microseconds, and the last entries are stored in milliseconds.
-/

namespace Forail.Analytics

open Forail.Slices

/-! ## Collectors -/

/-- The slicing functions of collectors.  The first one also stands for collectors that
are not expensive. -/
inductive Slicing where
  | trivialSlicing
  | fourHourSlicing
  | hostMetricSlicing
  deriving DecidableEq

structure CsvCollector where
  name : String
  key : String
  slicing : Slicing
  fullSyncInterval : Option ℤ
  deriving DecidableEq

def CsvCollector.fullKey (collector : CsvCollector) : String := collector.key ++ "_full"

/-- The registered collectors.  Only functions that are sliced by four hours have the same
key, and no other collector has the entries of a table. -/
structure Collectors where
  json : List String
  csv : List CsvCollector
  nodup : csv.Nodup
  shared : ∀ collector ∈ csv, ∀ other ∈ csv, collector.key = other.key → collector ≠ other →
    collector.slicing = .fourHourSlicing
  apart : ∀ collector ∈ csv, collector.key ∉ json ∧ collector.fullKey ∉ json
  fullApart : ∀ collector ∈ csv, ∀ other ∈ csv, collector.key ≠ other.fullKey

/-! ## What goes wrong -/

inductive Upload where
  | accepted
  | refused
  | raised
  deriving DecidableEq

/-- A file, whether `package` makes an archive of it and what becomes of the archive. -/
structure File where
  packaged : Bool
  upload : Upload
  deriving DecidableEq

def File.Shipped (file : File) : Prop := file.packaged = true ∧ file.upload = .accepted

instance : DecidablePred File.Shipped := fun _ => inferInstanceAs (Decidable (_ ∧ _))

/-- What a run of `gather` meets: whether it is licensed, configured and has the lock, the
collectors that return data, the answers to its uploads, and the clock. -/
structure Gathering where
  enabled : Bool
  now : ℤ
  hasData : String → Bool
  dataFile : File
  collect : CsvCollector → ℤ × ℤ → Option (List File)
  lowestDate : Option ℤ
  checkedAt : CsvCollector → ℤ
  syncedAt : CsvCollector → ℤ
  finished : ℤ

/-! ## Entries -/

inductive Recorded where
  | time (milliseconds : ℤ)
  | other
  deriving DecidableEq

/-- An entry in memory.  What is no time was stored by an older version. -/
inductive Entry where
  | time (microseconds : ℤ)
  | other
  deriving DecidableEq

def Recorded.load : Recorded → Entry
  | .time milliseconds => .time (milliseconds * 1000)
  | .other => .other

def Entry.dump : Entry → Recorded
  | .time microseconds => .time (microseconds / 1000)
  | .other => .other

abbrev Entries := String → Option Entry

def load (recorded : String → Option Recorded) : Entries := fun key =>
  (recorded key).map Recorded.load

def dump (entries : Entries) : String → Option Recorded := fun key =>
  (entries key).map Entry.dump

def recordedTime (recorded : String → Option Recorded) (key : String) : Option ℤ :=
  match recorded key with
  | some (Recorded.time milliseconds) => some (milliseconds * 1000)
  | _ => none

/-! ## The log of a run -/

/-- What happens to the tables: a period is sliced, a slice is shipped or reported empty, a
slice fails to be packaged or shipped, and the last entry is written. -/
inductive Event where
  | sliced (key : String) (horizon : ℤ) (slices : List (ℤ × ℤ))
  | collected (key : String) (slice : ℤ × ℤ)
  | failed (key : String) (slice : ℤ × ℤ)
  | advanced (key : String) (previous : Option ℤ) (horizon entry : ℤ)
  deriving DecidableEq

structure Progress where
  entries : Entries
  recorded : String → Option Recorded
  succeeded : Bool
  log : List Event

/-- How a part of `gather` ends: it goes on, raises or returns from `gather`. -/
inductive Outcome where
  | done
  | raised
  | returned
  deriving DecidableEq

/-! ## Collection intervals -/

def fourWeeks : ℤ := 2419200000000

def fourHours : ℤ := 14400000000

def thirtyDays : ℤ := 2592000000000

def day : ℤ := 86400000000

structure Interval where
  untilTime : ℤ
  lastGather : ℤ

def Interval.horizon (interval : Interval) : ℤ := interval.untilTime - fourWeeks

def calculateCollectionInterval (now : ℤ) (lastGather : Option ℤ) : Interval where
  untilTime := now
  lastGather := max (lastGather.getD (now - fourWeeks)) (now - fourWeeks)

/-- The start of a collection, `max(last_entries.get(key) or last_gather, horizon)`. -/
def lastEntry (interval : Interval) : Option Entry → Option ℤ
  | none => some (max interval.lastGather interval.horizon)
  | some (.time time) => some (max time interval.horizon)
  | some .other => none

def hostMetricSlices (untilTime : ℤ) (lowestDate : Option ℤ) (fullSync : Bool)
    (entry : Option Entry) : Option (List (ℤ × ℤ)) :=
  match if fullSync then none else entry with
  | some (.time start) => some (slicesFrom thirtyDays (by decide) start untilTime)
  | some .other => none
  | none =>
      match lowestDate with
      | some start => some (slicesFrom thirtyDays (by decide) start untilTime)
      | none => some []

/-- The slices of a collector, unless the slicing function raises. -/
def slicesOf (collector : CsvCollector) (interval : Interval) (lowestDate : Option ℤ)
    (fullSync : Bool) (recorded : String → Option Recorded) : Option (List (ℤ × ℤ)) :=
  let entry := load recorded collector.key
  match collector.slicing with
  | .trivialSlicing => (lastEntry interval entry).map fun start => [(start, interval.untilTime)]
  | .fourHourSlicing =>
      let start := (lastEntry interval entry).getD (max interval.lastGather interval.horizon)
      some (slicesFrom fourHours (by decide) start interval.untilTime)
  | .hostMetricSlicing => hostMetricSlices interval.untilTime lowestDate fullSync entry

/-- Whether a full synchronization is due, unless the comparison raises. -/
def fullSyncEnabled (collector : CsvCollector) (checkedAt : ℤ) (entries : Entries) :
    Option Bool :=
  match collector.fullSyncInterval.getD 0, entries collector.fullKey with
  | 0, _ => some false
  | _, none => some true
  | days, some (.time time) => some (decide (time < checkedAt - days * day))
  | _, some .other => none

/-! ## Tables -/

namespace Progress

variable (progress : Progress)

def write (entries : Entries) : Progress :=
  { progress with
    entries := entries
    recorded := dump entries }

def note (event : Event) : Progress := { progress with log := event :: progress.log }

def nextEntry (key : String) (stop : ℤ) : ℤ :=
  match progress.entries key with
  | some (.time time) => max time stop
  | _ => stop

def advance (key : String) (horizon stop : ℤ) : Progress :=
  let entry := progress.nextEntry key stop
  (progress.write (Function.update progress.entries key (some (.time entry)))).note
    (.advanced key (recordedTime progress.recorded key) horizon (entry / 1000 * 1000))

end Progress

/-- The files of a slice are packaged and shipped.  A file that is not packaged is passed
over, and after one that is refused no other is shipped. -/
def shipFiles : List File → Upload
  | [] => .accepted
  | file :: files =>
      if file.packaged then
        match file.upload with
        | .accepted => shipFiles files
        | failure => failure
      else shipFiles files

/-- The loop over the slices of a collector, where `configured` says that there is data of
the collector `config`. -/
def collectSlices (gathering : Gathering) (configured : Bool) (horizon : ℤ)
    (collector : CsvCollector) : List (ℤ × ℤ) → Progress → Outcome × Progress
  | [], progress => (.done, progress)
  | slice :: slices, progress =>
      match gathering.collect collector slice with
      | none => (.raised, progress)
      | some [] =>
          collectSlices gathering configured horizon collector slices
            ((progress.note (.collected collector.key slice)).advance collector.key horizon
              slice.2)
      | some files =>
          if configured then
            match shipFiles files with
            | .accepted =>
                let event : Event :=
                  if ∀ file ∈ files, file.Shipped then .collected collector.key slice
                  else .failed collector.key slice
                collectSlices gathering configured horizon collector slices
                  ((progress.note event).advance collector.key horizon slice.2)
            | .refused =>
                collectSlices gathering configured horizon collector slices
                  { progress.note (.failed collector.key slice) with succeeded := false }
            | .raised => (.raised, progress.note (.failed collector.key slice))
          else (.returned, progress)

/-- One collector that writes a table.  What raises is logged. -/
def collectTable (gathering : Gathering) (configured : Bool) (interval : Interval)
    (collector : CsvCollector) (progress : Progress) : Outcome × Progress :=
  match fullSyncEnabled collector (gathering.checkedAt collector) progress.entries with
  | none => (.done, { progress with succeeded := false })
  | some fullSync =>
      match slicesOf collector interval gathering.lowestDate fullSync progress.recorded with
      | none => (.done, { progress with succeeded := false })
      | some slices =>
          let result := collectSlices gathering configured interval.horizon collector slices
            (progress.note (.sliced collector.key interval.horizon slices))
          match result.1 with
          | .returned => result
          | .raised => (.done, { result.2 with succeeded := false })
          | .done =>
              if fullSync && result.2.succeeded then
                (.done, result.2.write (Function.update result.2.entries collector.fullKey
                  (some (.time (gathering.syncedAt collector)))))
              else result

def collectTables (gathering : Gathering) (configured : Bool) (interval : Interval) :
    List CsvCollector → Progress → Outcome × Progress
  | [], progress => (.done, progress)
  | collector :: collectors, progress =>
      let result := collectTable gathering configured interval collector progress
      match result.1 with
      | .done => collectTables gathering configured interval collectors result.2
      | _ => result

/-! ## Runs -/

def advanceData (untilTime : ℤ) : List String → Entries → Entries
  | [], entries => entries
  | key :: keys, entries =>
      let entry :=
        match entries key with
        | some (.time time) => max time untilTime
        | _ => untilTime
      advanceData untilTime keys (Function.update entries key (some (.time entry)))

def dataKeys (collectors : Collectors) (gathering : Gathering) (interval : Interval)
    (entries : Entries) : List String :=
  collectors.json.filter fun key =>
    gathering.hasData key && (lastEntry interval (entries key)).isSome

def collectData (gathering : Gathering) (interval : Interval) (data : List String)
    (progress : Progress) : Outcome × Progress :=
  if data = [] then (.done, progress)
  else if "config" ∉ data then (.returned, progress)
  else if gathering.dataFile.packaged then
    match gathering.dataFile.upload with
    | .accepted => (.done, progress.write (advanceData interval.untilTime data progress.entries))
    | .refused => (.done, { progress with succeeded := false })
    | .raised => (.raised, progress)
  else (.done, progress)

/-- The settings that `gather` keeps, the logs of all runs from the last one back, and the
time when the last one was finished. -/
structure Bookkeeping where
  lastEntries : String → Option Recorded
  lastGather : Option ℤ
  history : List (List Event)
  finished : ℤ

def collectAll (collectors : Collectors) (gathering : Gathering) (interval : Interval)
    (lastEntries : String → Option Recorded) : Outcome × Progress :=
  let data := dataKeys collectors gathering interval (load lastEntries)
  let result := collectData gathering interval data ⟨load lastEntries, lastEntries, true, []⟩
  match result.1 with
  | .done =>
      collectTables gathering (decide (data ≠ [])) interval collectors.csv result.2
  | _ => result

def gather (collectors : Collectors) (gathering : Gathering) (books : Bookkeeping) :
    Bookkeeping :=
  if gathering.enabled then
    let interval := calculateCollectionInterval gathering.now books.lastGather
    let result := collectAll collectors gathering interval books.lastEntries
    { lastEntries := result.2.recorded
      lastGather :=
        match result.1 with
        | .done =>
            match books.lastGather with
            | some time => some (max time interval.untilTime)
            | none => some interval.untilTime
        | _ => books.lastGather
      history := result.2.log :: books.history
      finished := gathering.finished }
  else { books with finished := gathering.finished }

def Gathering.OnTime (gathering : Gathering) (collectors : Collectors) (finished : ℤ) : Prop :=
  finished < gathering.now ∧ gathering.now ≤ gathering.finished ∧
    ∀ collector ∈ collectors.csv, gathering.now ≤ gathering.checkedAt collector ∧
      gathering.checkedAt collector ≤ gathering.finished

instance (collectors : Collectors) (gathering : Gathering) (finished : ℤ) :
    Decidable (gathering.OnTime collectors finished) :=
  inferInstanceAs (Decidable (_ ∧ _ ∧ _))

def step (collectors : Collectors) (books : Bookkeeping) (gathering : Gathering) :
    Option Bookkeeping :=
  if gathering.OnTime collectors books.finished then some (gather collectors gathering books)
  else none

end Forail.Analytics
