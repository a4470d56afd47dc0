import Forail.Core.Runs
import Mathlib.Algebra.Ring.Int.Defs
import Mathlib.Logic.Function.Basic

/-!
# The marks of job events

Callback workers pop the events of a job from one queue, build the event objects and
buffer them until they are flushed.  A failed or changed event is marked when its object
is built.  Building the wrap-up event also marks the parents of marked events, by
updates of the rows that all workers have saved so far.
-/

namespace Forail.EventMarks

open Forail.Runs

/-! ## Events -/

inductive EventType where
  | runnerOnFailed
  | runnerOnStart
  | runnerOnOk
  | runnerOnError
  | runnerOnSkipped
  | runnerOnUnreachable
  | runnerOnNoHosts
  | runnerOnAsyncPoll
  | runnerOnAsyncOk
  | runnerOnAsyncFailed
  | runnerItemOnOk
  | runnerItemOnFailed
  | runnerItemOnSkipped
  | runnerRetry
  | runnerOnFileDiff
  | playbookOnStart
  | playbookOnNotify
  | playbookOnInclude
  | playbookOnNoHostsMatched
  | playbookOnNoHostsRemaining
  | playbookOnTaskStart
  | playbookOnVarsPrompt
  | playbookOnSetup
  | playbookOnImportForHost
  | playbookOnNotImportForHost
  | playbookOnPlayStart
  | playbookOnStats
  | debug
  | verbose
  | deprecated
  | warning
  | systemWarning
  | error
  deriving DecidableEq

def failedEvents : List EventType :=
  [.runnerOnFailed, .runnerOnError, .runnerOnUnreachable, .runnerOnAsyncFailed,
    .runnerItemOnFailed, .error]

/-- What the marks are computed from: whether errors are ignored, the flag `changed` of a
result, and the numbers of the hosts, unless they are not a dictionary of numbers. -/
structure EventData where
  ignoreErrors : Bool
  res : Option Bool
  failures : Option (List ℤ)
  dark : Option (List ℤ)
  changed : Option (List ℤ)
  deriving DecidableEq

structure JobEvent where
  event : EventType
  eventData : EventData
  uuid : String
  parentUuid : String
  deriving DecidableEq

inductive Mark where
  | failed
  | changed
  deriving DecidableEq

structure Row where
  event : JobEvent
  failed : Bool
  changed : Bool
  deriving DecidableEq

namespace Row

def marked (row : Row) : Mark → Bool
  | .failed => row.failed
  | .changed => row.changed

def mark (row : Row) : Mark → Row
  | .failed => { row with failed := true }
  | .changed => { row with changed := true }

end Row

/-- The part of `_update_from_event_data` that only depends on the event. -/
def createFromData (event : JobEvent) : Row :=
  let failed := decide (event.event ∈ failedEvents) && !event.eventData.ignoreErrors
  let changed := decide (event.eventData.res = some true)
  if event.event = .playbookOnStats then
    match event.eventData.failures, event.eventData.dark with
    | some failures, some dark =>
        let failed := decide (failures.sum + dark.sum ≠ 0)
        match event.eventData.changed with
        | some changes => ⟨event, failed, decide (changes.sum ≠ 0)⟩
        | none => ⟨event, failed, changed⟩
    | _, _ => ⟨event, failed, changed⟩
  else ⟨event, failed, changed⟩

def JobEvent.own (event : JobEvent) (mark : Mark) : Bool := (createFromData event).marked mark

def Row.IsParent (parent child : Row) : Prop := parent.event.uuid = child.event.parentUuid

/-! ## Workers -/

/-- The next statement of the propagation.  The parents of the marked events are read
before the update. -/
inductive Statement where
  | select (mark : Mark)
  | update (mark : Mark) (parents : List String)
  deriving DecidableEq

/-- A worker with its buffer, and the wrap-up event whose object it is building. -/
structure Worker where
  building : Option (Row × Statement)
  buff : List Row

def Worker.idle : Worker := ⟨none, []⟩

def Worker.rows (worker : Worker) : List Row := (worker.building.map Prod.fst).toList ++ worker.buff

/-- The callback receiver, as far as one job is concerned; events are lost when building
them raises or when they cannot be saved. -/
structure Receiver where
  queue : List JobEvent
  workers : ℕ → Worker
  saved : List Row
  lost : List JobEvent

namespace Receiver

def initial (events : List JobEvent) : Receiver where
  queue := events
  workers := fun _ => .idle
  saved := []
  lost := []

def setWorker (receiver : Receiver) (pid : ℕ) (worker : Worker) : Receiver :=
  { receiver with workers := Function.update receiver.workers pid worker }

variable (receiver : Receiver) (pid : ℕ) (worker : Worker)

@[simp]
theorem workers_setWorker_self : (receiver.setWorker pid worker).workers pid = worker := by
  simp [setWorker]

theorem workers_setWorker_of_ne {other : ℕ} (hother : other ≠ pid) :
    (receiver.setWorker pid worker).workers other = receiver.workers other := by
  simp [setWorker, hother]

end Receiver

inductive Outcome where
  | saved
  | kept
  | dropped
  deriving DecidableEq

def parentUuids (rows : List Row) (mark : Mark) : List String :=
  (rows.filter fun row => row.marked mark).map fun row => row.event.parentUuid

def markParents (rows : List Row) (mark : Mark) (parents : List String) : List Row :=
  rows.map fun row => if row.event.uuid ∈ parents then row.mark mark else row

inductive Action where
  | pop (pid : ℕ)
  | execute (pid : ℕ)
  | raise (pid : ℕ)
  | flush (pid : ℕ) (outcome : Row → Outcome)

def execute (receiver : Receiver) (pid : ℕ) : Option Receiver :=
  match (receiver.workers pid).building with
  | none => none
  | some (row, .select mark) =>
      receiver.setWorker pid { receiver.workers pid with
        building := some (row, .update mark (parentUuids receiver.saved mark)) }
  | some (row, .update .changed parents) =>
      some { receiver.setWorker pid
          { receiver.workers pid with building := some (row, .select .failed) } with
        saved := markParents receiver.saved .changed parents }
  | some (row, .update .failed parents) =>
      some { receiver.setWorker pid ⟨none, (receiver.workers pid).buff ++ [row]⟩ with
        saved := markParents receiver.saved .failed parents }

/-- A worker pops an event, takes one step of the propagation, gives it up, or flushes its
buffer.  It flushes when it is not building an event. -/
def step (receiver : Receiver) : Action → Option Receiver
  | .pop pid =>
      match receiver.queue, (receiver.workers pid).building with
      | event :: queue, none =>
          let worker :=
            if event.event = .playbookOnStats then
              { receiver.workers pid with
                building := some (createFromData event, .select .changed) }
            else ⟨none, (receiver.workers pid).buff ++ [createFromData event]⟩
          some { receiver.setWorker pid worker with queue := queue }
      | _, _ => none
  | .execute pid => execute receiver pid
  | .raise pid =>
      match (receiver.workers pid).building with
      | none => none
      | some (row, _) =>
          some { receiver.setWorker pid { receiver.workers pid with building := none } with
            lost := receiver.lost ++ [row.event] }
  | .flush pid outcome =>
      match (receiver.workers pid).building with
      | some _ => none
      | none =>
          let buff := (receiver.workers pid).buff
          some { receiver.setWorker pid ⟨none, buff.filter fun row => outcome row = .kept⟩ with
            saved := receiver.saved ++ buff.filter fun row => outcome row = .saved
            lost := receiver.lost ++
              (buff.filter fun row => outcome row = .dropped).map Row.event }

structure Receiver.AllSaved (receiver : Receiver) : Prop where
  queue : receiver.queue = []
  workers : ∀ pid, receiver.workers pid = .idle
  lost : receiver.lost = []

/-- The runs of any number of workers that take turns in any order. -/
abbrev Reachable (events : List JobEvent) : Receiver → Prop :=
  Run step (fun _ _ => True) (.initial events)

/-- A parent of a marked event is marked, and an event that is marked is so itself or has
such a child. -/
structure MarksReachParents (rows : List Row) : Prop where
  reached : ∀ mark, ∀ child ∈ rows, child.marked mark = true → ∀ parent ∈ rows,
    parent.IsParent child → parent.marked mark = true
  justified : ∀ mark, ∀ row ∈ rows, row.marked mark = true →
    row.event.own mark = true ∨ ∃ child ∈ rows, row.IsParent child ∧ child.marked mark = true

end Forail.EventMarks
