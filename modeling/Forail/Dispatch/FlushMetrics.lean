import Forail.Dispatch.CallbackReceiver
import Mathlib.Data.Int.Init

/-!
# The metrics of the callback receiver

A gauge counts the events in memory: one more for each popped message, and less by what a
flush has saved and for the end of a job's output.  A flush also divides by the number of
saved events less those that came without a creation time.  Harm is done when an event
leaves the buffer in another way than by being saved in a flush that does not raise.
-/

namespace Forail.CallbackReceiver

open Forail.Runs

/-! ## The receiver with its metrics -/

def Receiver.due (receiver : Receiver) (force : Bool) (failures : Failures) : Bool :=
  force || failures.elapsed || receiver.buff.any fun entry => 1000 ≤ entry.2.length

namespace FlushResult

def subtracted (result : FlushResult) : ℕ := if result.raised then 0 else result.saved.length

def dividesByZero (result : FlushResult) : Bool :=
  !result.raised && decide (result.saved ≠ [] ∧ result.saved.length = result.missingCreated)

end FlushResult

/-- `inMemory` is the gauge.  The attempt to flush that comes next has a flag that forces it
and the number of attempts that may follow. -/
structure Metered where
  receiver : Receiver
  inMemory : ℤ
  zeroDivisions : ℕ
  flushing : Option (Bool × ℕ)

/-- What `read` returns.  It asks for a flush when nothing was popped and when the message
cannot be decoded, and it may raise, as a body without keys does at once in `perform_work`. -/
inductive Reading
  | nothing
  | undecodable
  | raised (popped : Bool)
  | body (message : Message)

inductive Action
  | read (reading : Reading) (summaryFails : Bool)
  | flush (failures : Failures)

namespace Metered

def initial : Metered where
  receiver := .initial
  inMemory := 0
  zeroDivisions := 0
  flushing := none

variable (metered : Metered)

def receive (summaryFails : Bool) (message : Message) : Metered :=
  if message.event = "FLUSH" then { metered with flushing := some (true, maxRetries) }
  else if message.event = "EOF" then
    let eofWrapups := metered.receiver.eofWrapups +
      if summaryFails = false ∧ message.eventClass.wrapupEvent = "EOF" then 1 else 0
    { metered with
      receiver := { metered.receiver with eofWrapups := eofWrapups }
      inMemory := metered.inMemory - 1 }
  else if message.malformed then
    { metered with receiver := { metered.receiver with popped := metered.receiver.popped + 1 } }
  else
    { metered with
      receiver := metered.receiver.pop message
      flushing := some (false, maxRetries) }

def pop : Metered := { metered with inMemory := metered.inMemory + 1 }

def read (summaryFails : Bool) : Reading → Metered
  | .nothing => { metered with flushing := some (true, maxRetries) }
  | .undecodable => { metered.pop with flushing := some (true, maxRetries) }
  | .raised popped => if popped then metered.pop else metered
  | .body message => metered.pop.receive summaryFails message

def attempt (force : Bool) (remaining : ℕ) (failures : Failures) : Metered :=
  let flushed := metered.receiver.flush force failures
  let measured :=
    if metered.receiver.due force failures then
      let result := flushBuffer failures metered.receiver.buff
      { metered with
        inMemory := metered.inMemory - result.subtracted
        zeroDivisions := metered.zeroDivisions + if result.dividesByZero then 1 else 0 }
    else metered
  if flushed.2 = false then { measured with receiver := flushed.1, flushing := none }
  else if remaining = 0 then { measured with receiver := flushed.1.giveUp, flushing := none }
  else { measured with receiver := flushed.1, flushing := some (force, remaining - 1) }

def step (metered : Metered) : Action → Option Metered
  | .read reading summaryFails =>
      if metered.flushing = none then some (metered.read summaryFails reading) else none
  | .flush failures =>
      metered.flushing.map fun attempt => metered.attempt attempt.1 attempt.2 failures

end Metered

/-- The gauge is the number of buffered events, and no flush has divided by zero. -/
structure Truthful (metered : Metered) : Prop where
  inMemory : metered.inMemory = metered.receiver.buffered.length
  zeroDivisions : metered.zeroDivisions = 0

/-- A flush raises in its loop, by the division or when the metrics are sent. -/
def FlushResult.raises (result : FlushResult) (failures : Failures) : Bool :=
  result.raised || decide (result.saved ≠ [] ∧ result.saved.length = result.missingCreated) ||
    failures.metrics

/-! ## The steps of one message -/

section

variable {metered : Metered} {force : Bool} {remaining : ℕ}

theorem attempts_run (failures : ℕ → Failures)
    (hflushing : metered.flushing = some (force, remaining)) :
    ∃ metered', Run Metered.step (fun _ _ => True) metered metered' ∧ metered'.flushing = none ∧
      metered'.receiver = Receiver.attempts force failures remaining metered.receiver := by
  induction remaining generalizing metered with
  | zero =>
    have hstep : metered.step (.flush (failures 0)) =
        some (metered.attempt force 0 (failures 0)) := by
      rw [Metered.step, hflushing, Option.map_some]
    refine ⟨_, .next (.flush (failures 0)) .start trivial hstep, ?_⟩
    rw [Metered.attempt, Receiver.attempts]
    dsimp only
    cases (metered.receiver.flush force (failures 0)).2 with
    | false => exact ⟨rfl, rfl⟩
    | true => exact ⟨rfl, rfl⟩
  | succ remaining ih =>
    have hstep : metered.step (.flush (failures (remaining + 1))) =
        some (metered.attempt force (remaining + 1) (failures (remaining + 1))) := by
      rw [Metered.step, hflushing, Option.map_some]
    have hrun : Run Metered.step (fun _ _ => True) metered
        (metered.attempt force (remaining + 1) (failures (remaining + 1))) :=
      .next (.flush (failures (remaining + 1))) .start trivial hstep
    rw [Metered.attempt] at hrun
    rw [Receiver.attempts]
    dsimp only at hrun ⊢
    cases hraises : (metered.receiver.flush force (failures (remaining + 1))).2 with
    | false =>
      rw [hraises, if_pos rfl] at hrun
      exact ⟨_, hrun, rfl, rfl⟩
    | true =>
      rw [hraises, if_neg Bool.noConfusion, if_neg (Nat.succ_ne_zero remaining)] at hrun
      obtain ⟨next, hfirst, hnext, hreceiver⟩ :
          ∃ next : Metered, Run Metered.step (fun _ _ => True) metered next ∧
            next.flushing = some (force, remaining) ∧
            next.receiver = (metered.receiver.flush force (failures (remaining + 1))).1 :=
        ⟨_, hrun, rfl, rfl⟩
      obtain ⟨metered', hrest, hdone, hflushed⟩ := ih hnext
      rw [hreceiver] at hflushed
      exact ⟨metered', hfirst.trans hrest, hdone, hflushed⟩

end

/-- What becomes of an event when its class is saved and nothing raises before. -/
inductive SaveOutcome
  | saved
  | kept
  | dropped
  | raises
  deriving DecidableEq

/-- The bulk save of its class succeeds, or its own save.  Else the search for NUL in a
missing text raises the first time, and the last time the event is dropped. -/
def saveOutcome (failures : Failures) (cls : EventClass) (event : Event) : SaveOutcome :=
  if failures.bulkCreate cls = false ∨ failures.save event.id = false then .saved
  else if event.retryCount = 0 ∧ event.stdout = none then .raises
  else if individualEventRetries ≤ event.retryCount + 1 then .dropped
  else .kept

def Connected (failures : Failures) (cls : EventClass) (events : List Event) : Prop :=
  events ≠ [] → failures.bulkCreate cls = true → failures.ensureConnection cls = false

/-- Nothing raises when the events of a class are saved and announced. -/
structure Steady (failures : Failures) (cls : EventClass) (events : List Event) : Prop where
  connected : Connected failures cls events
  texts : ∀ event ∈ events, saveOutcome failures cls event ≠ .raises
  sent : ∀ event ∈ events, saveOutcome failures cls event = .saved → Sent failures event

/-- A flush that does not raise, and in which each event is saved or stays. -/
def Clean (failures : Failures) (buff : Buffer) : Prop :=
  ∀ entry ∈ buff, Steady failures entry.1 entry.2 ∧
    ∀ event ∈ entry.2, saveOutcome failures entry.1 event ≠ .dropped

/-- The save of a class raises before one of its events is saved or dropped. -/
def Interrupted (failures : Failures) (cls : EventClass) (events : List Event) : Prop :=
  ¬ Connected failures cls events ∨ Connected failures cls events ∧
    ∃ event, events.find? (fun event => saveOutcome failures cls event ≠ .kept) = some event ∧
      saveOutcome failures cls event = .raises

def Idle (failures : Failures) (cls : EventClass) (events : List Event) : Prop :=
  Connected failures cls events ∧ ∀ event ∈ events, saveOutcome failures cls event = .kept

def Fruitless (failures : Failures) (buff : Buffer) : Prop :=
  ∃ before entry after, buff = before ++ entry :: after ∧
    (∀ other ∈ before, Idle failures other.1 other.2) ∧ Interrupted failures entry.1 entry.2

def acceptedCount (failures : Failures) (buff : Buffer) : ℕ :=
  (buff.flatMap fun entry =>
    entry.2.filter fun event => saveOutcome failures entry.1 event = .saved).length

def missingCount (buff : Buffer) : ℕ :=
  (buff.flatMap Prod.snd).countP fun event => !event.created

/-- The flush saves nothing, or not as many events as came without a creation time. -/
def Divisible (failures : Failures) (buff : Buffer) : Prop :=
  acceptedCount failures buff = 0 ∨ acceptedCount failures buff ≠ missingCount buff

/-- What was popped becomes an event or is the end of a job's output. -/
def HarmlessReading : Reading → Prop
  | .nothing => True
  | .undecodable => False
  | .raised popped => popped = false
  | .body message => message.event ≠ "FLUSH" ∧ (message.event = "EOF" ∨ message.malformed = false)

/-- An attempt that is not the last may raise before it has done anything, and after the
division.  The last one gives up nothing. -/
def HarmlessFlush (buff : Buffer) (remaining : ℕ) (failures : Failures) : Prop :=
  (Clean failures buff ∧ Divisible failures buff ∧
      (remaining = 0 → failures.metrics = true →
        acceptedCount failures buff = (buff.flatMap Prod.snd).length)) ∨
    (remaining ≠ 0 ∧ Fruitless failures buff)

def Harmless (metered : Metered) : Action → Prop
  | .read reading _ => HarmlessReading reading
  | .flush failures => ∀ force remaining, metered.flushing = some (force, remaining) →
      metered.receiver.due force failures = true →
        HarmlessFlush metered.receiver.buff remaining failures

end Forail.CallbackReceiver
