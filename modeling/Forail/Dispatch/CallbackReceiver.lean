import Forail.Core.Runs
import Mathlib.Data.List.Basic
import Mathlib.Data.List.Forall2
import Mathlib.Data.Nat.Basic

/-!
# The callback receiver

The worker buffers the events of running jobs and flushes the buffer: all events of a
class at once, and one by one when that fails.  Saved events leave the buffer before
their messages are sent and the wrap-up of their job is done.  A flush that raises is
repeated, and finally the buffer is given up.
-/

namespace Forail.CallbackReceiver

open Forail.Runs

inductive EventClass where
  | jobEvent
  | adHocCommandEvent
  | projectUpdateEvent
  | inventoryUpdateEvent
  | systemJobEvent
  deriving DecidableEq, Repr

namespace EventClass

/-- The classes in the order in which a message is compared with them. -/
def all : List EventClass :=
  [jobEvent, adHocCommandEvent, projectUpdateEvent, inventoryUpdateEvent, systemJobEvent]

def wrapupEvent : EventClass → String
  | inventoryUpdateEvent => "EOF"
  | systemJobEvent => "EOF"
  | _ => "playbook_on_stats"

end EventClass

/-- A message of the queue: the classes whose job it refers to, and what becomes part of
the event.  `create_from_data` raises for a malformed one. -/
structure Message where
  references : List EventClass
  event : String
  stdout : Option String
  created : Bool
  skipWebsocketMessage : Bool
  malformed : Bool
  deriving DecidableEq, Repr

def Message.eventClass (message : Message) : EventClass :=
  (EventClass.all.find? fun cls => cls ∈ message.references).getD .systemJobEvent

structure Event where
  id : ℕ
  stdout : Option String
  created : Bool
  retryCount : ℕ
  skipWebsocketMessage : Bool
  notificationTriggerEvent : Bool
  deriving DecidableEq, Repr

/-- What goes wrong in one flush; the last field is a failure of the metrics. -/
structure Failures where
  elapsed : Bool
  ensureConnection : EventClass → Bool
  bulkCreate : EventClass → Bool
  save : ℕ → Bool
  emit : ℕ → Bool
  metrics : Bool

abbrev Buffer := List (EventClass × List Event)

/-- The worker, with what has become of the events; `wrapups` are the events for which
`job_stats_wrapup` has been called, `eofWrapups` counts its calls without an event. -/
structure Receiver where
  buff : Buffer
  popped : ℕ
  saved : List Event
  dropped : List Event
  givenUp : List Event
  wrapups : List ℕ
  eofWrapups : ℕ
  deriving DecidableEq, Repr

def maxRetries : ℕ := 2

def individualEventRetries : ℕ := 3

def containsNul (text : String) : Bool := text.toList.contains (Char.ofNat 0)

def removeNul (text : String) : String :=
  String.ofList (text.toList.filter fun char => char ≠ Char.ofNat 0)

/-- The event after a save that failed.  The search for NUL raises on a missing text. -/
def Event.retried (event : Event) : Option Event :=
  let event := { event with retryCount := event.retryCount + 1 }
  if event.retryCount = 1 then
    event.stdout.map fun stdout =>
      if containsNul stdout then { event with stdout := some (removeNul stdout) } else event
  else some event

/-- What a save of the events of one class leaves in the buffer, saves and drops, and
whether it raises. -/
structure SaveResult where
  kept : List Event
  saved : List Event
  dropped : List Event
  raised : Bool

def saveIndividually (failures : Failures) : List Event → SaveResult
  | [] => ⟨[], [], [], false⟩
  | event :: events =>
      if failures.save event.id = false then
        let rest := saveIndividually failures events
        { rest with saved := event :: rest.saved }
      else
        match event.retried with
        | none => ⟨{ event with retryCount := event.retryCount + 1 } :: events, [], [], true⟩
        | some retried =>
            let rest := saveIndividually failures events
            if individualEventRetries ≤ retried.retryCount then
              { rest with dropped := retried :: rest.dropped }
            else { rest with kept := retried :: rest.kept }

def saveEvents (failures : Failures) (cls : EventClass) (events : List Event) : SaveResult :=
  if failures.bulkCreate cls = false then ⟨[], events, [], false⟩
  else if failures.ensureConnection cls then ⟨events, [], [], true⟩
  else saveIndividually failures events

/-- The messages and wrap-ups of the saved events, and whether a message raises.
`job_stats_wrapup` handles its own exceptions. -/
def announce (failures : Failures) : List Event → List ℕ × Bool
  | [] => ([], false)
  | event :: events =>
      if event.skipWebsocketMessage = false ∧ failures.emit event.id = true then ([], true)
      else
        let rest := announce failures events
        (if event.notificationTriggerEvent then event.id :: rest.1 else rest.1, rest.2)

/-- What a flush leaves, saves, drops and wraps up, whether it raises, and how many events
had no creation time. -/
structure FlushResult where
  buff : Buffer
  saved : List Event
  dropped : List Event
  wrapups : List ℕ
  raised : Bool
  missingCreated : ℕ

def flushBuffer (failures : Failures) : Buffer → FlushResult
  | [] => ⟨[], [], [], [], false, 0⟩
  | (cls, events) :: buff =>
      let missing := events.countP fun event => !event.created
      let result :=
        if events = [] then ⟨[], [], [], false⟩
        else saveEvents failures cls (events.map fun event => { event with created := true })
      if result.raised then
        ⟨(cls, result.kept) :: buff, result.saved, result.dropped, [], true, missing⟩
      else
        let announced := announce failures result.saved
        if announced.2 then
          ⟨(cls, result.kept) :: buff, result.saved, result.dropped, announced.1, true, missing⟩
        else
          let rest := flushBuffer failures buff
          ⟨(cls, result.kept) :: rest.buff, result.saved ++ rest.saved,
            result.dropped ++ rest.dropped, announced.1 ++ rest.wrapups, rest.raised,
            missing + rest.missingCreated⟩

namespace Receiver

def initial : Receiver where
  buff := []
  popped := 0
  saved := []
  dropped := []
  givenUp := []
  wrapups := []
  eofWrapups := 0

variable (receiver : Receiver)

/-- `flush`, and whether it raises.  The average of the metrics divides by the number of
saved events that came with a creation time. -/
def flush (force : Bool) (failures : Failures) : Receiver × Bool :=
  if force || failures.elapsed || receiver.buff.any fun entry => 1000 ≤ entry.2.length then
    let result := flushBuffer failures receiver.buff
    let flushed :=
      { receiver with
        buff := result.buff
        saved := receiver.saved ++ result.saved
        dropped := receiver.dropped ++ result.dropped
        wrapups := receiver.wrapups ++ result.wrapups }
    let metricsRaise := decide (result.saved ≠ [] ∧ result.saved.length = result.missingCreated)
    (flushed, result.raised || metricsRaise || failures.metrics)
  else (receiver, false)

def giveUp : Receiver :=
  { receiver with
    buff := []
    givenUp := receiver.givenUp ++ receiver.buff.flatMap Prod.snd }

def attempts (force : Bool) (failures : ℕ → Failures) : ℕ → Receiver → Receiver
  | 0, receiver =>
      let flushed := receiver.flush force (failures 0)
      if flushed.2 then flushed.1.giveUp else flushed.1
  | remaining + 1, receiver =>
      let flushed := receiver.flush force (failures (remaining + 1))
      if flushed.2 then attempts force failures remaining flushed.1 else flushed.1

def append (cls : EventClass) (event : Event) : Buffer → Buffer
  | [] => [(cls, [event])]
  | (other, events) :: buff =>
      if other = cls then (other, events ++ [event]) :: buff
      else (other, events) :: append cls event buff

def create (message : Message) : Event where
  id := receiver.popped
  stdout := message.stdout
  created := message.created
  retryCount := 0
  skipWebsocketMessage := message.skipWebsocketMessage
  notificationTriggerEvent := message.event = message.eventClass.wrapupEvent

def pop (message : Message) : Receiver :=
  { receiver with
    buff := append message.eventClass (receiver.create message) receiver.buff
    popped := receiver.popped + 1 }

/-- `perform_work`.  The end of a job's output is not an event to save, and a message that
raises is only logged. -/
def performWork (failures : ℕ → Failures) (summaryFails : Bool) (message : Message) : Receiver :=
  if message.event = "FLUSH" then attempts true failures maxRetries receiver
  else if message.event = "EOF" then
    if summaryFails = false ∧ message.eventClass.wrapupEvent = "EOF" then
      { receiver with eofWrapups := receiver.eofWrapups + 1 }
    else receiver
  else if message.malformed then { receiver with popped := receiver.popped + 1 }
  else attempts false failures maxRetries (receiver.pop message)

end Receiver

/-- A popped message, with what goes wrong in the attempts to flush, of which the first
one has the largest number, and in the message about the end of a job's output. -/
structure Work where
  message : Message
  failures : ℕ → Failures
  summaryFails : Bool

def step (receiver : Receiver) (work : Work) : Option Receiver :=
  some (receiver.performWork work.failures work.summaryFails work.message)

def held (id : ℕ) (events : List Event) : ℕ := events.countP fun event => event.id = id

def Receiver.buffered (receiver : Receiver) : List Event := receiver.buff.flatMap Prod.snd

/-- Every popped event is saved once, in the buffer, dropped after its retries, or given
up with the buffer, and the job of a saved wrap-up event has been wrapped up once. -/
structure EventsConserved (receiver : Receiver) : Prop where
  once : ∀ id < receiver.popped,
    held id receiver.saved + held id receiver.buffered + held id receiver.dropped +
      held id receiver.givenUp = 1
  dropped : ∀ event ∈ receiver.dropped, individualEventRetries ≤ event.retryCount
  wrappedUp : ∀ event ∈ receiver.saved, event.notificationTriggerEvent = true →
    receiver.wrapups.count event.id = 1

def Sent (failures : Failures) (event : Event) : Prop :=
  event.skipWebsocketMessage = true ∨ failures.emit event.id = false

/-- No message raises up to a wrap-up event in the buffer of a class, and the events behind
it have a text. -/
structure CalmEvents (failures : Failures) (events : List Event) : Prop where
  own : ∀ event ∈ events, event.notificationTriggerEvent = true → Sent failures event
  earlier : events.Pairwise fun event wrapup =>
    wrapup.notificationTriggerEvent = true → Sent failures event
  texts : events.Pairwise fun wrapup event =>
    wrapup.notificationTriggerEvent = true → event.stdout ≠ none

def Calm (failures : Failures) (buff : Buffer) : Prop :=
  ∀ entry ∈ buff, CalmEvents failures entry.2

/-- A message that is to become an event is well formed, and no attempt to flush raises
where a wrap-up event is saved. -/
structure Quiet (receiver : Receiver) (work : Work) : Prop where
  wellFormed : work.message.event ≠ "FLUSH" → work.message.event ≠ "EOF" →
    work.message.malformed = false
  flushed : ∀ attempt ≤ maxRetries, Calm (work.failures attempt) receiver.buff
  popped : ∀ attempt ≤ maxRetries, Calm (work.failures attempt) (receiver.pop work.message).buff

variable {failures : Failures} {events : List Event} {event event' : Event} {cls : EventClass}
  {buff : Buffer} {receiver receiver' : Receiver} {work : Work} {id : ℕ}

theorem held_cons : held id (event :: events) = held id events + if event.id = id then 1 else 0 := by
  rw [held, List.countP_cons, held]
  simp only [decide_eq_true_eq]

theorem held_append (left right : List Event) :
    held id (left ++ right) = held id left + held id right :=
  List.countP_append

/-! ## Saving the events of a class -/

structure SameEvent (after before : Event) : Prop where
  id : after.id = before.id
  skip : after.skipWebsocketMessage = before.skipWebsocketMessage
  trigger : after.notificationTriggerEvent = before.notificationTriggerEvent
  stdout : before.stdout ≠ none → after.stdout ≠ none

theorem SameEvent.refl (event : Event) : SameEvent event event :=
  ⟨rfl, rfl, rfl, fun hsome => hsome⟩

theorem SameEvent.trans {first second third : Event} (hfirst : SameEvent first second)
    (hsecond : SameEvent second third) : SameEvent first third where
  id := hfirst.id.trans hsecond.id
  skip := hfirst.skip.trans hsecond.skip
  trigger := hfirst.trigger.trans hsecond.trigger
  stdout := fun hstdout => hfirst.stdout (hsecond.stdout hstdout)

instance : Std.Refl SameEvent := ⟨SameEvent.refl⟩

instance : IsTrans Event SameEvent := ⟨fun _ _ _ => SameEvent.trans⟩

def KeptFrom (kept events : List Event) : Prop := kept.SublistForall₂ SameEvent events

theorem KeptFrom.refl (events : List Event) : KeptFrom events events :=
  List.SublistForall₂.is_refl.refl events

theorem KeptFrom.trans {first second third : List Event} (hfirst : KeptFrom first second)
    (hsecond : KeptFrom second third) : KeptFrom first third :=
  List.SublistForall₂.is_trans.trans first second third hfirst hsecond

theorem KeptFrom.mem {kept : List Event} (hkept : KeptFrom kept events) (hmem : event ∈ kept) :
    ∃ before ∈ events, SameEvent event before := by
  induction hkept with
  | nil => exact absurd hmem List.not_mem_nil
  | cons hsame _ ih =>
    rcases List.mem_cons.mp hmem with rfl | hrest
    · exact ⟨_, List.mem_cons_self, hsame⟩
    · obtain ⟨before, hbefore, hevent⟩ := ih hrest
      exact ⟨before, List.mem_cons_of_mem _ hbefore, hevent⟩
  | cons_right _ ih =>
    obtain ⟨before, hbefore, hevent⟩ := ih hmem
    exact ⟨before, List.mem_cons_of_mem _ hbefore, hevent⟩

theorem CalmEvents.of_cons (hcalm : CalmEvents failures (event :: events)) :
    CalmEvents failures events where
  own := fun other hother => hcalm.own other (List.mem_cons_of_mem _ hother)
  earlier := (List.pairwise_cons.mp hcalm.earlier).2
  texts := (List.pairwise_cons.mp hcalm.texts).2

theorem SameEvent.sent (hsame : SameEvent event event') (hsent : Sent failures event') :
    Sent failures event := by
  rw [Sent, hsame.skip, hsame.id]
  exact hsent

theorem not_sent_iff : ¬ Sent failures event ↔
    event.skipWebsocketMessage = false ∧ failures.emit event.id = true := by
  rw [Sent, not_or, Bool.not_eq_true, Bool.not_eq_false]

theorem KeptFrom.calm {kept : List Event} (hkept : KeptFrom kept events)
    (hcalm : CalmEvents failures events) : CalmEvents failures kept := by
  induction hkept with
  | nil => exact ⟨fun _ hmem => absurd hmem List.not_mem_nil, .nil, .nil⟩
  | cons_right _ ih => exact ih hcalm.of_cons
  | @cons event before kept events hsame hrest ih =>
    have hcalmRest := ih hcalm.of_cons
    refine ⟨fun other hother => ?_, List.pairwise_cons.mpr ⟨fun other hother => ?_,
      hcalmRest.earlier⟩, List.pairwise_cons.mpr ⟨fun other hother => ?_, hcalmRest.texts⟩⟩
    · rcases List.mem_cons.mp hother with rfl | hlater
      · intro htrigger
        exact hsame.sent (hcalm.own before List.mem_cons_self (hsame.trigger ▸ htrigger))
      · exact hcalmRest.own other hlater
    · intro htrigger
      obtain ⟨source, hsource, hother⟩ := KeptFrom.mem hrest hother
      exact hsame.sent ((List.pairwise_cons.mp hcalm.earlier).1 source hsource
        (hother.trigger ▸ htrigger))
    · intro htrigger
      obtain ⟨source, hsource, hother⟩ := KeptFrom.mem hrest hother
      exact hother.stdout ((List.pairwise_cons.mp hcalm.texts).1 source hsource
        (hsame.trigger ▸ htrigger))

theorem sameEvent_retried (hretried : event.retried = some event') :
    SameEvent event' event := by
  rw [Event.retried] at hretried
  dsimp only at hretried
  split at hretried
  · obtain ⟨stdout, hstdout, rfl⟩ := Option.map_eq_some_iff.mp hretried
    split
    · exact ⟨rfl, rfl, rfl, fun _ => Option.some_ne_none _⟩
    · exact ⟨rfl, rfl, rfl, fun hsome => hsome⟩
  · obtain rfl := Option.some.inj hretried
    exact ⟨rfl, rfl, rfl, fun hsome => hsome⟩

theorem retried_eq_none_iff :
    event.retried = none ↔ event.retryCount = 0 ∧ event.stdout = none := by
  rw [Event.retried]
  dsimp only
  split
  · next hfirst =>
    rw [Option.map_eq_none_iff]
    exact (and_iff_right (Nat.succ.inj hfirst)).symm
  · next hlater =>
    exact iff_of_false (Option.some_ne_none _) fun hnone => hlater (congrArg Nat.succ hnone.1)

/-- The events of a class are divided into what is saved, kept and dropped. -/
structure Divided (events : List Event) (result : SaveResult) : Prop where
  held : ∀ id, held id result.saved + held id result.kept + held id result.dropped =
    held id events
  dropped : ∀ event ∈ result.dropped, individualEventRetries ≤ event.retryCount
  kept : KeptFrom result.kept events
  saved : result.saved.Sublist events

theorem divided_nil : Divided [] ⟨[], [], [], false⟩ where
  held := fun _ => rfl
  dropped := fun _ hmem => absurd hmem List.not_mem_nil
  kept := .nil
  saved := .slnil

theorem divided_saveIndividually (failures : Failures) (events : List Event) :
    Divided events (saveIndividually failures events) := by
  induction events with
  | nil => exact divided_nil
  | cons event events ih =>
    have hkept : KeptFrom (saveIndividually failures events).kept (event :: events) :=
      .cons_right ih.kept
    have hsaved : (saveIndividually failures events).saved.Sublist (event :: events) :=
      ih.saved.cons event
    rw [saveIndividually]
    split
    · refine ⟨fun id => ?_, ih.dropped, hkept, ih.saved.cons_cons event⟩
      have hrest := ih.held id
      simp only [held_cons]
      omega
    · split
      · refine ⟨fun id => ?_, fun _ hmem => absurd hmem List.not_mem_nil,
          .cons ⟨rfl, rfl, rfl, fun hsome => hsome⟩ (KeptFrom.refl events), List.nil_sublist _⟩
        simp only [held_cons]
        simp [CallbackReceiver.held]
      · next retried hretried =>
        have hsame : SameEvent retried event := sameEvent_retried hretried
        split
        · next hmany =>
          refine ⟨fun id => ?_, ?_, hkept, hsaved⟩
          · have hrest := ih.held id
            simp only [held_cons, hsame.id]
            omega
          · intro other hother
            rcases List.mem_cons.mp hother with rfl | hrest
            · exact hmany
            · exact ih.dropped other hrest
        · refine ⟨fun id => ?_, ih.dropped, .cons hsame ih.kept, hsaved⟩
          have hrest := ih.held id
          simp only [held_cons, hsame.id]
          omega

theorem not_raised_saveIndividually (hstdout : ∀ event ∈ events, event.stdout ≠ none) :
    (saveIndividually failures events).raised = false := by
  induction events with
  | nil => rfl
  | cons event events ih =>
    have hrest := ih fun other hother => hstdout other (List.mem_cons_of_mem _ hother)
    rw [saveIndividually]
    split
    · exact hrest
    · split
      · next hnone => exact absurd (retried_eq_none_iff.mp hnone).2 (hstdout event List.mem_cons_self)
      · split
        · exact hrest
        · exact hrest

theorem divided_saveEvents (failures : Failures) (cls : EventClass) (events : List Event) :
    Divided events (saveEvents failures cls events) := by
  rw [saveEvents]
  split
  · exact ⟨fun _ => rfl, fun _ hmem => absurd hmem List.not_mem_nil, .nil, List.Sublist.refl _⟩
  · split
    · refine ⟨fun id => ?_, fun _ hmem => absurd hmem List.not_mem_nil, KeptFrom.refl events,
        List.nil_sublist _⟩
      simp [CallbackReceiver.held]
    · exact divided_saveIndividually failures events

/-! ## Wrap-ups -/

def wrapUpsOf (events : List Event) : List ℕ :=
  (events.filter Event.notificationTriggerEvent).map Event.id

theorem wrapUpsOf_append (left right : List Event) :
    wrapUpsOf (left ++ right) = wrapUpsOf left ++ wrapUpsOf right := by
  rw [wrapUpsOf, List.filter_append, List.map_append, wrapUpsOf, wrapUpsOf]

theorem wrapUpsOf_eq_nil (hnone : ∀ event ∈ events, event.notificationTriggerEvent = false) :
    wrapUpsOf events = [] := by
  rw [wrapUpsOf, List.map_eq_nil_iff, List.filter_eq_nil_iff]
  intro event hmem
  rw [hnone event hmem]
  exact Bool.false_ne_true

theorem wrapUpsOf_cons_of_not (hother : event.notificationTriggerEvent = false) :
    wrapUpsOf (event :: events) = wrapUpsOf events := by
  rw [wrapUpsOf, List.filter_cons_of_neg (by rw [hother]; exact Bool.false_ne_true), wrapUpsOf]

theorem announce_of_calm (hcalm : CalmEvents failures events) :
    (announce failures events).1 = wrapUpsOf events := by
  induction events with
  | nil => rfl
  | cons event events ih =>
    have hrest := ih hcalm.of_cons
    rw [announce]
    split
    · next hraises =>
      have hnotSent : ¬ Sent failures event := not_sent_iff.mpr hraises
      have hnone : ∀ other ∈ event :: events, other.notificationTriggerEvent = false := by
        intro other hother
        rw [← Bool.not_eq_true]
        intro htrigger
        rcases List.mem_cons.mp hother with rfl | hlater
        · exact hnotSent (hcalm.own other List.mem_cons_self htrigger)
        · exact hnotSent ((List.pairwise_cons.mp hcalm.earlier).1 other hlater htrigger)
      exact (wrapUpsOf_eq_nil hnone).symm
    · dsimp only
      cases htrigger : event.notificationTriggerEvent with
      | true => rw [if_pos rfl, hrest, wrapUpsOf, wrapUpsOf, List.filter_cons_of_pos htrigger,
          List.map_cons]
      | false => rw [if_neg Bool.false_ne_true, hrest, wrapUpsOf_cons_of_not htrigger]

theorem wrapUps_of_raised (hcalm : CalmEvents failures events)
    (hraised : (saveIndividually failures events).raised = true) :
    wrapUpsOf (saveIndividually failures events).saved = [] := by
  induction events with
  | nil => rfl
  | cons event events ih =>
    have hrest := ih hcalm.of_cons
    rw [saveIndividually] at hraised ⊢
    split at hraised
    · next hsave =>
      rw [if_pos hsave]
      have hother : event.notificationTriggerEvent = false := by
        rw [← Bool.not_eq_true]
        intro htrigger
        have hfine : (saveIndividually failures events).raised = false :=
          not_raised_saveIndividually fun other hlater =>
            (List.pairwise_cons.mp hcalm.texts).1 other hlater htrigger
        exact Bool.false_ne_true (hfine.symm.trans hraised)
      exact (wrapUpsOf_cons_of_not hother).trans (hrest hraised)
    · next hsave =>
      rw [if_neg hsave]
      split at hraised
      · rfl
      · dsimp only
        split at hraised
        · next hmany => rw [if_pos hmany]; exact hrest hraised
        · next hfew => rw [if_neg hfew]; exact hrest hraised

/-! ## The flush of the buffer -/

def prepared (events : List Event) : List Event :=
  events.map fun event => { event with created := true }

theorem held_prepared (id : ℕ) (events : List Event) : held id (prepared events) = held id events := by
  rw [held, prepared, List.countP_map, held]
  rfl

theorem keptFrom_prepared (events : List Event) : KeptFrom (prepared events) events := by
  rw [KeptFrom, prepared, List.sublistForall₂_map_left_iff, List.sublistForall₂_iff]
  refine ⟨events, ?_, List.Sublist.refl events⟩
  exact List.forall₂_same.mpr fun event _ => ⟨rfl, rfl, rfl, fun hsome => hsome⟩

/-- The save of one class, for which nothing is done without events. -/
def saveClass (failures : Failures) (cls : EventClass) (events : List Event) : SaveResult :=
  if events = [] then ⟨[], [], [], false⟩ else saveEvents failures cls (prepared events)

theorem divided_saveClass (failures : Failures) (cls : EventClass) (events : List Event) :
    Divided (prepared events) (saveClass failures cls events) := by
  rw [saveClass]
  split
  · next hnil =>
    subst hnil
    exact divided_nil
  · exact divided_saveEvents failures cls (prepared events)

theorem calm_saved (hcalm : CalmEvents failures events) :
    CalmEvents failures (saveClass failures cls events).saved := by
  have hprepared := (keptFrom_prepared events).calm hcalm
  have hsaved := (divided_saveClass failures cls events).saved
  have hkept : KeptFrom (saveClass failures cls events).saved (prepared events) :=
    List.sublistForall₂_iff.mpr ⟨_, List.forall₂_refl _, hsaved⟩
  exact hkept.calm hprepared

theorem wrapUps_saveClass_of_raised (hcalm : CalmEvents failures events)
    (hraised : (saveClass failures cls events).raised = true) :
    wrapUpsOf (saveClass failures cls events).saved = [] := by
  rw [saveClass] at hraised ⊢
  split at hraised
  · exact absurd hraised Bool.false_ne_true
  · next hsome =>
    rw [if_neg hsome]
    rw [saveEvents] at hraised ⊢
    split at hraised
    · exact absurd hraised Bool.false_ne_true
    · next hbulk =>
      rw [if_neg hbulk]
      split at hraised
      · next hensure => rw [if_pos hensure]; rfl
      · next hensure =>
        rw [if_neg hensure]
        exact wrapUps_of_raised ((keptFrom_prepared events).calm hcalm) hraised

theorem flushBuffer_cons (failures : Failures) (cls : EventClass) (events : List Event)
    (buff : Buffer) :
    flushBuffer failures ((cls, events) :: buff) =
      let missing := events.countP fun event => !event.created
      let result := saveClass failures cls events
      let announced := announce failures result.saved
      if result.raised then
        ⟨(cls, result.kept) :: buff, result.saved, result.dropped, [], true, missing⟩
      else if announced.2 then
        ⟨(cls, result.kept) :: buff, result.saved, result.dropped, announced.1, true, missing⟩
      else
        let rest := flushBuffer failures buff
        ⟨(cls, result.kept) :: rest.buff, result.saved ++ rest.saved,
          result.dropped ++ rest.dropped, announced.1 ++ rest.wrapups, rest.raised,
          missing + rest.missingCreated⟩ := rfl

structure Flushed (failures : Failures) (buff : Buffer) (result : FlushResult) : Prop where
  held : ∀ id, held id result.saved + held id (result.buff.flatMap Prod.snd) +
    held id result.dropped = held id (buff.flatMap Prod.snd)
  dropped : ∀ event ∈ result.dropped, individualEventRetries ≤ event.retryCount
  kept : ∀ entry ∈ result.buff, ∃ before ∈ buff, KeptFrom entry.2 before.2
  wrapups : Calm failures buff → result.wrapups = wrapUpsOf result.saved

theorem kept_saveClass {result : SaveResult} (hdivided : Divided (prepared events) result) :
    KeptFrom result.kept events :=
  hdivided.kept.trans (keptFrom_prepared events)

theorem held_buffer_cons (id : ℕ) (cls : EventClass) (events : List Event) (buff : Buffer) :
    held id (((cls, events) :: buff).flatMap Prod.snd) =
      held id events + held id (buff.flatMap Prod.snd) := by
  rw [List.flatMap_cons, held_append]

theorem flushed_stopped {result : SaveResult} (hdivided : Divided (prepared events) result)
    (wrapups : List ℕ) (missing : ℕ)
    (hwrapups : Calm failures ((cls, events) :: buff) → wrapups = wrapUpsOf result.saved) :
    Flushed failures ((cls, events) :: buff)
      ⟨(cls, result.kept) :: buff, result.saved, result.dropped, wrapups, true, missing⟩ where
  held := by
    intro id
    have hclass := hdivided.held id
    rw [held_prepared] at hclass
    simp only [held_buffer_cons]
    omega
  dropped := hdivided.dropped
  kept := by
    intro entry hentry
    rcases List.mem_cons.mp hentry with rfl | hother
    · exact ⟨(cls, events), List.mem_cons_self, kept_saveClass hdivided⟩
    · exact ⟨entry, List.mem_cons_of_mem _ hother, KeptFrom.refl entry.2⟩
  wrapups := hwrapups

theorem flushed_flushBuffer (failures : Failures) (buff : Buffer) :
    Flushed failures buff (flushBuffer failures buff) := by
  induction buff with
  | nil =>
    exact ⟨fun _ => rfl, fun _ hmem => absurd hmem List.not_mem_nil,
      fun _ hmem => absurd hmem List.not_mem_nil, fun _ => rfl⟩
  | cons entry buff ih =>
    obtain ⟨cls, events⟩ := entry
    have hdivided := divided_saveClass failures cls events
    have hannounced (hcalm : Calm failures ((cls, events) :: buff)) :
        (announce failures (saveClass failures cls events).saved).1 =
          wrapUpsOf (saveClass failures cls events).saved :=
      announce_of_calm (calm_saved (hcalm (cls, events) List.mem_cons_self))
    rw [flushBuffer_cons]
    dsimp only
    split
    · next hraised =>
      apply flushed_stopped hdivided
      intro hcalm
      exact (wrapUps_saveClass_of_raised (hcalm (cls, events) List.mem_cons_self) hraised).symm
    · split
      · exact flushed_stopped hdivided _ _ hannounced
      · constructor
        · intro id
          have hclass := hdivided.held id
          have hrest := ih.held id
          rw [held_prepared] at hclass
          simp only [held_buffer_cons, held_append]
          omega
        · intro event hmem
          rcases List.mem_append.mp hmem with hclass | hrest
          · exact hdivided.dropped event hclass
          · exact ih.dropped event hrest
        · intro entry hentry
          rcases List.mem_cons.mp hentry with rfl | hother
          · exact ⟨(cls, events), List.mem_cons_self, kept_saveClass hdivided⟩
          · obtain ⟨before, hbefore, hevents⟩ := ih.kept entry hother
            exact ⟨before, List.mem_cons_of_mem _ hbefore, hevents⟩
        · intro hcalm
          have hrest := ih.wrapups fun entry hentry => hcalm entry (List.mem_cons_of_mem _ hentry)
          dsimp only
          rw [wrapUpsOf_append, hannounced hcalm, hrest]

theorem Calm.kept {other : Failures} {result : FlushResult} (hcalm : Calm other buff)
    (hflushed : Flushed failures buff result) : Calm other result.buff := by
  intro entry hentry
  obtain ⟨before, hbefore, hkept⟩ := hflushed.kept entry hentry
  exact hkept.calm (hcalm before hbefore)

/-! ## The receiver -/

structure Accounted (receiver : Receiver) : Prop where
  held : ∀ id, held id receiver.saved + held id receiver.buffered + held id receiver.dropped +
    held id receiver.givenUp = if id < receiver.popped then 1 else 0
  dropped : ∀ event ∈ receiver.dropped, individualEventRetries ≤ event.retryCount

theorem accounted_initial : Accounted .initial where
  held := fun _ => rfl
  dropped := fun _ hmem => absurd hmem List.not_mem_nil

theorem accounted_flush (hkept : Accounted receiver) (force : Bool) (failures : Failures) :
    Accounted (receiver.flush force failures).1 := by
  rw [Receiver.flush]
  split
  · have hflushed := flushed_flushBuffer failures receiver.buff
    refine ⟨fun id => ?_, ?_⟩
    · have hbefore := hkept.held id
      have hbuffer := hflushed.held id
      simp only [Receiver.buffered, held_append] at hbefore ⊢
      omega
    · intro event hmem
      rcases List.mem_append.mp hmem with hearlier | hnew
      · exact hkept.dropped event hearlier
      · exact hflushed.dropped event hnew
  · exact hkept

theorem accounted_giveUp (hkept : Accounted receiver) : Accounted receiver.giveUp where
  held := by
    intro id
    have hbefore := hkept.held id
    have hempty : held id receiver.giveUp.buffered = 0 := rfl
    have hgiven : held id receiver.giveUp.givenUp =
        held id receiver.givenUp + held id receiver.buffered := held_append _ _
    change held id receiver.saved + _ + held id receiver.dropped + _ =
      if id < receiver.popped then 1 else 0
    rw [hempty, hgiven]
    omega
  dropped := hkept.dropped

theorem accounted_attempts (force : Bool) (failures : ℕ → Failures) (remaining : ℕ)
    (hkept : Accounted receiver) :
    Accounted (Receiver.attempts force failures remaining receiver) := by
  induction remaining generalizing receiver with
  | zero =>
    have hflushed := accounted_flush hkept force (failures 0)
    rw [Receiver.attempts]
    split
    · exact accounted_giveUp hflushed
    · exact hflushed
  | succ remaining ih =>
    have hflushed := accounted_flush hkept force (failures (remaining + 1))
    rw [Receiver.attempts]
    split
    · exact ih hflushed
    · exact hflushed

theorem held_append_buffer (cls : EventClass) (event : Event) (buff : Buffer) :
    held id ((Receiver.append cls event buff).flatMap Prod.snd) =
      held id (buff.flatMap Prod.snd) + if event.id = id then 1 else 0 := by
  induction buff with
  | nil => exact held_cons
  | cons entry buff ih =>
    obtain ⟨other, events⟩ := entry
    have hsingle : held id [event] = if event.id = id then 1 else 0 :=
      held_cons.trans (Nat.zero_add _)
    rw [Receiver.append]
    split
    · rw [held_buffer_cons, held_buffer_cons, held_append, hsingle]
      omega
    · rw [held_buffer_cons, held_buffer_cons, ih]
      omega

theorem accounted_pop (hkept : Accounted receiver) (message : Message) :
    Accounted (receiver.pop message) where
  held := by
    intro id
    have hbefore := hkept.held id
    have hbuffer : held id (receiver.pop message).buffered =
        held id receiver.buffered + if receiver.popped = id then 1 else 0 :=
      held_append_buffer _ _ _
    change held id receiver.saved + _ + held id receiver.dropped + held id receiver.givenUp =
      if id < receiver.popped + 1 then 1 else 0
    rw [hbuffer]
    split at hbefore <;> split <;> split <;> omega
  dropped := hkept.dropped

def WrappedUp (receiver : Receiver) : Prop := receiver.wrapups = wrapUpsOf receiver.saved

theorem wrappedUp_flush (hkept : WrappedUp receiver) (force : Bool)
    (hcalm : Calm failures receiver.buff) : WrappedUp (receiver.flush force failures).1 := by
  rw [Receiver.flush]
  split
  · have hnew := (flushed_flushBuffer failures receiver.buff).wrapups hcalm
    rw [WrappedUp] at hkept ⊢
    dsimp only
    rw [wrapUpsOf_append, hkept, hnew]
  · exact hkept

theorem calm_flush {other : Failures} (hcalm : Calm other receiver.buff) (force : Bool)
    (failures : Failures) : Calm other (receiver.flush force failures).1.buff := by
  rw [Receiver.flush]
  split
  · exact hcalm.kept (flushed_flushBuffer failures receiver.buff)
  · exact hcalm

theorem wrappedUp_attempts (force : Bool) (failures : ℕ → Failures) (remaining : ℕ)
    (hkept : WrappedUp receiver)
    (hcalm : ∀ attempt ≤ remaining, Calm (failures attempt) receiver.buff) :
    WrappedUp (Receiver.attempts force failures remaining receiver) := by
  induction remaining generalizing receiver with
  | zero =>
    have hflushed := wrappedUp_flush hkept force (hcalm 0 (Nat.le_refl 0))
    rw [Receiver.attempts]
    split
    · exact hflushed
    · exact hflushed
  | succ remaining ih =>
    have hflushed := wrappedUp_flush hkept force (hcalm (remaining + 1) (Nat.le_refl _))
    rw [Receiver.attempts]
    split
    · apply ih hflushed
      intro attempt hattempt
      exact calm_flush (hcalm attempt (Nat.le_succ_of_le hattempt)) _ _
    · exact hflushed

theorem count_wrapUpsOf_le (id : ℕ) (events : List Event) :
    (wrapUpsOf events).count id ≤ held id events := by
  rw [wrapUpsOf, List.count_eq_countP, List.countP_map, held]
  calc (events.filter Event.notificationTriggerEvent).countP ((· == id) ∘ Event.id)
      ≤ events.countP ((· == id) ∘ Event.id) := List.filter_sublist.countP_le
    _ ≤ events.countP fun event => decide (event.id = id) :=
        List.countP_mono_left fun event _ hid => hid

structure Conserved (receiver : Receiver) : Prop where
  accounted : Accounted receiver
  wrappedUp : WrappedUp receiver

theorem Conserved.eventsConserved (hconserved : Conserved receiver) :
    EventsConserved receiver where
  once := by
    intro id hpopped
    rw [hconserved.accounted.held id, if_pos hpopped]
  dropped := hconserved.accounted.dropped
  wrappedUp := by
    intro event hmem htrigger
    rw [hconserved.wrappedUp]
    have hcalled : event.id ∈ wrapUpsOf receiver.saved :=
      List.mem_map_of_mem (List.mem_filter.mpr ⟨hmem, htrigger⟩)
    have honce := count_wrapUpsOf_le event.id receiver.saved
    have hheld : held event.id receiver.saved ≤ 1 := by
      have hsum := hconserved.accounted.held event.id
      split at hsum <;> omega
    exact Nat.le_antisymm (Nat.le_trans honce hheld) (List.count_pos_iff.mpr hcalled)

theorem conserved_step (hkept : Conserved receiver) (hquiet : Quiet receiver work)
    (hstep : step receiver work = some receiver') : Conserved receiver' := by
  obtain rfl := Option.some.inj hstep
  rw [Receiver.performWork]
  split
  · exact ⟨accounted_attempts _ _ _ hkept.accounted,
      wrappedUp_attempts _ _ _ hkept.wrappedUp hquiet.flushed⟩
  · next hflush =>
    split
    · split
      · exact ⟨⟨hkept.accounted.held, hkept.accounted.dropped⟩, hkept.wrappedUp⟩
      · exact hkept
    · next heof =>
      rw [hquiet.wellFormed hflush heof, if_neg Bool.false_ne_true]
      exact ⟨accounted_attempts _ _ _ (accounted_pop hkept.accounted _),
        wrappedUp_attempts _ _ _ hkept.wrappedUp hquiet.popped⟩

/-- **Event conservation.**  When no message raises in a class whose buffer holds a
wrap-up event, every well-formed event is conserved and its job is wrapped up, whatever
the database does. -/
theorem events_conserved (hrun : Run step Quiet .initial receiver) : EventsConserved receiver := by
  have hconserved : Conserved receiver :=
    hrun.invariant Conserved ⟨accounted_initial, rfl⟩
      fun _ _ _ hkept hquiet hstep => conserved_step hkept hquiet hstep
  exact hconserved.eventsConserved

/-! ### A wrap-up event -/

def playbookStats : Message where
  references := [.jobEvent]
  event := "playbook_on_stats"
  stdout := some "ok=1"
  created := true
  skipWebsocketMessage := false
  malformed := false

def databaseFlake (attempt : ℕ) : Failures where
  elapsed := true
  ensureConnection := fun _ => attempt = 2
  bulkCreate := fun _ => true
  save := fun _ => false
  emit := fun _ => false
  metrics := false

def websocketFlake (attempt : ℕ) : Failures where
  elapsed := true
  ensureConnection := fun _ => false
  bulkCreate := fun _ => false
  save := fun _ => false
  emit := fun id => attempt = 2 ∧ id = 0
  metrics := false

theorem quiet_databaseFlake : Quiet .initial ⟨playbookStats, databaseFlake, false⟩ where
  wellFormed := fun _ _ => rfl
  flushed := fun _ _ _ hentry => absurd hentry List.not_mem_nil
  popped := by
    intro attempt _ entry hentry
    obtain rfl := List.mem_singleton.mp hentry
    exact ⟨fun _ _ _ => .inr rfl, List.pairwise_singleton _ _, List.pairwise_singleton _ _⟩

theorem events_conserved_flake : ∃ receiver, Run step Quiet .initial receiver ∧
    receiver.wrapups = [0] ∧ receiver.buffered = [] ∧ EventsConserved receiver := by
  have hrun : Run step Quiet .initial
      (Receiver.initial.performWork databaseFlake false playbookStats) :=
    .next ⟨playbookStats, databaseFlake, false⟩ .start quiet_databaseFlake rfl
  have hconserved := events_conserved hrun
  exact ⟨_, hrun, by decide, by decide, hconserved⟩

theorem saved_not_wrapped_up : ¬ ∀ receiver,
    Run step (fun _ _ => True) .initial receiver → EventsConserved receiver := by
  intro hclaim
  have hevents : ([⟨playbookStats, websocketFlake, false⟩].foldlM step Receiver.initial).any
      (fun receiver => receiver.saved.any Event.notificationTriggerEvent &&
        decide (receiver.wrapups = [])) = true := by decide
  obtain ⟨receiver, hrun, htest⟩ := exists_run_of_any _ hevents
  obtain ⟨htrigger, hnone⟩ := Bool.and_eq_true_iff.mp htest
  obtain ⟨event, hsaved, hset⟩ := List.any_eq_true.mp htrigger
  have honce := (hclaim receiver hrun).wrappedUp event hsaved hset
  rw [of_decide_eq_true hnone, List.count_nil] at honce
  exact absurd honce Nat.zero_ne_one

end Forail.CallbackReceiver
