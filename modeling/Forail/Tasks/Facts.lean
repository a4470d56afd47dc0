import Forail.Core.Json
import Mathlib.Data.Nat.Basic
import Mathlib.Logic.Function.Basic
import Mathlib.Order.Monotone.Defs

/-!
# The fact cache of a job

Before a job the facts of its hosts are written to files, and after it the files are
read back.  Only the time of the last file written passes from one to the other: a
newer file counts as gathered by the playbook, and a missing file as cleared by it.
-/

namespace Forail.Facts

open Forail.Json

abbrev HostId := ℕ

abbrev Path := String

abbrev Time := ℕ

structure Host where
  name : String
  ansibleFacts : Value
  ansibleFactsModified : Option Time

/-! ## Files -/

inductive Content where
  | json (facts : Value)
  | notJson
  /-- A directory, or a file without permission. -/
  | unreadable

structure Entry where
  content : Content
  modified : Time

structure FileSystem where
  realpath : Path → Path
  entries : Path → Option Entry

namespace FileSystem

variable (files : FileSystem)

def entry (path : Path) : Option Entry := files.entries (files.realpath path)

def write (path : Path) (entry : Entry) : FileSystem :=
  { files with entries := Function.update files.entries (files.realpath path) (some entry) }

variable {files} {path other : Path} {entry : Entry}

theorem entry_write (hsame : files.realpath other = files.realpath path) :
    (files.write path entry).entry other = some entry := by
  rw [FileSystem.entry, write, hsame]
  exact Function.update_self _ _ _

theorem entry_write_of_ne (hother : files.realpath other ≠ files.realpath path) :
    (files.write path entry).entry other = files.entry other := by
  rw [FileSystem.entry, write]
  exact Function.update_of_ne hother _ _

theorem entries_write {place : Path} {found : Entry}
    (hfound : (files.write path entry).entries place = some found) :
    found = entry ∨ files.entries place = some found := by
  rw [write] at hfound
  by_cases hplace : place = files.realpath path
  · rw [hplace] at hfound
    simp only [Function.update_self, Option.some.injEq] at hfound
    exact .inl hfound.symm
  · simp only [Function.update_of_ne hplace] at hfound
    exact .inr hfound

end FileSystem

structure NewFileSystem extends FileSystem where
  no_files : ∀ path entry, entries path = some entry → entry.content = .unreadable

def filepath (destination : Path) (name : String) : Path := destination ++ "/" ++ name

def inDestination (files : FileSystem) (destination path : Path) : Bool :=
  destination.toList.isPrefixOf (files.realpath path).toList

/-! ## Before the job -/

/-- The times that the file system gives to the files written one after the other. -/
structure Clock where
  time : ℕ → Time
  monotone : Monotone time
  pos : ∀ index, 0 < time index

/-- What comes of opening a file and writing an object to it.  An object that is cut
short is not JSON. -/
inductive Attempt where
  | notOpened
  | cutShort
  | written
  deriving DecidableEq

structure Environment where
  now : ℕ → Time
  clock : Clock
  attempt : ℕ → Attempt

def expired (timeout : ℕ) (now : Time) (host : Host) : Bool :=
  match host.ansibleFactsModified with
  | none => true
  | some modified => timeout ≠ 0 && modified + timeout * 1000000 < now

structure StartState where
  files : FileSystem
  lastFilepathWritten : Option Path

section Start

variable (destination : Path) (timeout : ℕ) (env : Environment)

def startHost (state : StartState) (index : ℕ) (host : Host) : StartState :=
  let path := filepath destination host.name
  if expired timeout (env.now index) host then state
  else if ¬ inDestination state.files destination path then state
  else
    match env.attempt index with
    | .notOpened => state
    | .cutShort =>
        { state with files := state.files.write path ⟨.notJson, env.clock.time index⟩ }
    | .written =>
        { files := state.files.write path ⟨.json host.ansibleFacts, env.clock.time index⟩
          lastFilepathWritten := some path }

def startHosts (state : StartState) (index : ℕ) : List Host → StartState
  | [] => state
  | host :: hosts =>
      startHosts (startHost destination timeout env state index host) (index + 1) hosts

def startFactCache (settingsTimeout : ℕ) (timeout : Option ℕ) (files : NewFileSystem)
    (hosts : List Host) : FileSystem × Option Time :=
  let state := startHosts destination (timeout.getD settingsTimeout) env
    ⟨files.toFileSystem, none⟩ 0 hosts
  (state.files,
    (state.lastFilepathWritten.bind state.files.entry).map Entry.modified)

end Start

/-! ## After the job -/

inductive Change where
  | updated (facts : Value)
  | cleared

def Change.facts : Change → Value
  | updated facts => facts
  | cleared => .dict []

structure Update where
  host : HostId
  change : Change
  modified : Time

inductive Decision where
  | skip
  | unmodified
  | change (change : Change)
  | raise

def writeBack (files : FileSystem) (destination : Path) (factsWriteTime : Option Time)
    (name : String) : Decision :=
  let path := filepath destination name
  if ¬ inDestination files destination path then .skip
  else
    match files.entry path with
    | none => .change .cleared
    | some entry =>
        if factsWriteTime.getD 0 = 0 ∨ factsWriteTime.getD 0 < entry.modified then
          match entry.content with
          | .json facts => .change (.updated facts)
          | .notJson => .skip
          | .unreadable => .raise
        else .unmodified

structure FinishState where
  hostsToUpdate : List Update
  stored : List Update
  raised : Bool

/-- What `finish_fact_cache` meets at the hosts of its list: the time, and the answers
of the database to the tries of an update. -/
structure Database where
  now : ℕ → Time
  answers : ℕ → ℕ → Bool

namespace FinishState

def updateHosts (maxTries : ℕ) (answers : ℕ → Bool) (state : FinishState) : FinishState :=
  if state.hostsToUpdate.isEmpty then state
  else if (List.range maxTries).any answers then
    { state with
      hostsToUpdate := []
      stored := state.stored ++ state.hostsToUpdate }
  else { state with raised := true }

def updateBatch (answers : ℕ → Bool) (state : FinishState) : FinishState :=
  if 100 < state.hostsToUpdate.length then state.updateHosts 5 answers else state

end FinishState

section Finish

variable (table : HostId → Host) (files : FileSystem) (destination : Path)
  (factsWriteTime : Option Time) (database : Database)

/-- One turn of the loop of `finish_fact_cache`, which an exception has ended. -/
def finishHost (state : FinishState) (index : ℕ) (host : HostId) : FinishState :=
  if state.raised then state
  else
    match writeBack files destination factsWriteTime (table host).name with
    | .skip => state
    | .unmodified => state.updateBatch (database.answers index)
    | .change change =>
        FinishState.updateBatch (database.answers index)
          { state with
            hostsToUpdate := state.hostsToUpdate ++ [⟨host, change, database.now index⟩] }
    | .raise => { state with raised := true }

def finishHosts (state : FinishState) (index : ℕ) : List HostId → FinishState
  | [] => if state.raised then state else state.updateHosts 5 (database.answers index)
  | host :: hosts =>
      finishHosts
        (finishHost table files destination factsWriteTime database state index host)
        (index + 1) hosts

def finishFactCache (hosts : List HostId) : FinishState :=
  finishHosts table files destination factsWriteTime database ⟨[], [], false⟩ 0 hosts

end Finish

def Update.apply (table : HostId → Host) (update : Update) : HostId → Host :=
  Function.update table update.host
    { table update.host with
      ansibleFacts := update.change.facts
      ansibleFactsModified := some update.modified }

def FinishState.table (state : FinishState) (table : HostId → Host) : HostId → Host :=
  state.stored.foldl Update.apply table

/-! ## A job -/

/-- A job with a fact cache: its hosts, and the files that its playbook leaves. -/
structure Job where
  destination : Path
  files : NewFileSystem
  settingsTimeout : ℕ
  timeout : Option ℕ
  table : HostId → Host
  hosts : List HostId
  env : Environment
  after : FileSystem
  database : Database

namespace Job

variable (job : Job)

def started : FileSystem × Option Time :=
  startFactCache job.destination job.env job.settingsTimeout job.timeout job.files
    (job.hosts.map job.table)

def finished : FinishState :=
  finishFactCache job.table job.after job.destination job.started.2 job.database job.hosts

def path (host : HostId) : Path := filepath job.destination (job.table host).name

end Job

end Forail.Facts
