import Forail.Core.FallibleLoops
import Forail.Core.Json
import Forail.Eda.EventRules

/-!
# Events from messages

The callback receiver makes an event of each message.  Times are parsed, keys that are not
known are dropped, and long texts of the event data are cut before they are copied into fields
of the event.
-/

namespace Forail.EventConstruction

open Forail.FallibleLoops Forail.Json
open Forail.EventRules (strip isSpace)

structure Datetime where
  clock : ℤ
  offset : Option ℤ
  deriving DecidableEq, Repr

/-- A time without an offset is taken to be one in UTC. -/
def Datetime.aware (time : Datetime) : Datetime :=
  { time with offset := time.offset.or (some 0) }

inductive Argument where
  | value (value : Value)
  | time (time : Datetime)

abbrev Kwargs := String → Option Argument

inductive Parsed where
  | time (time : Datetime)
  | none
  | valueError

inductive Raised where
  | typeError
  | valueError
  | attributeError
  deriving DecidableEq, Repr

inductive EventClass where
  | jobEvent
  | projectUpdateEvent
  | adHocCommandEvent
  | inventoryUpdateEvent
  | systemJobEvent
  deriving DecidableEq, Repr

namespace EventClass

/-- Whether it is a `BasePlaybookEvent`; the others are `BaseCommandEvent`s. -/
def isPlaybook : EventClass → Bool
  | jobEvent | projectUpdateEvent => true
  | _ => false

def playbookKeys : List String :=
  ["event", "event_data", "playbook", "play", "role", "task", "created", "counter", "uuid",
    "stdout", "parent_uuid", "start_line", "end_line", "verbosity"]

def commandKeys : List String :=
  ["event_data", "created", "counter", "uuid", "stdout", "start_line", "end_line", "verbosity"]

def validKeys : EventClass → List String
  | jobEvent => playbookKeys ++ ["job_id", "workflow_job_id", "job_created", "host_id", "host_name"]
  | projectUpdateEvent => playbookKeys ++ ["project_update_id", "workflow_job_id", "job_created"]
  | adHocCommandEvent => commandKeys ++
      ["ad_hoc_command_id", "event", "host_name", "host_id", "workflow_job_id", "job_created"]
  | inventoryUpdateEvent =>
      commandKeys ++ ["inventory_update_id", "workflow_job_id", "job_created"]
  | systemJobEvent => commandKeys ++ ["system_job_id", "job_created"]

def playbookFields : List String :=
  ["event", "event_data", "failed", "changed", "uuid", "playbook", "play", "role", "task",
    "counter", "stdout", "verbosity", "start_line", "end_line", "created", "modified"]

def commandFields : List String :=
  ["event_data", "uuid", "counter", "stdout", "verbosity", "start_line", "end_line", "created",
    "modified"]

def fields : EventClass → List String
  | jobEvent =>
      playbookFields ++ ["id", "job_id", "host_id", "host_name", "parent_uuid", "job_created"]
  | projectUpdateEvent => playbookFields ++ ["id", "project_update_id", "job_created"]
  | adHocCommandEvent => commandFields ++
      ["id", "event", "failed", "changed", "ad_hoc_command_id", "host_id", "host_name",
        "job_created"]
  | inventoryUpdateEvent => commandFields ++ ["id", "inventory_update_id", "job_created"]
  | systemJobEvent => commandFields ++ ["id", "system_job_id", "job_created"]

def jobReference : EventClass → String
  | jobEvent => "job_id"
  | projectUpdateEvent => "project_update_id"
  | adHocCommandEvent => "ad_hoc_command_id"
  | inventoryUpdateEvent => "inventory_update_id"
  | systemJobEvent => "system_job_id"

def wrapupEvent : EventClass → String
  | jobEvent | projectUpdateEvent | adHocCommandEvent => "playbook_on_stats"
  | inventoryUpdateEvent | systemJobEvent => "EOF"

def failedEvents : EventClass → List String
  | jobEvent | projectUpdateEvent =>
      ["runner_on_failed", "runner_on_error", "runner_on_unreachable", "runner_on_async_failed",
        "runner_item_on_failed", "error"]
  | adHocCommandEvent => ["runner_on_failed", "runner_on_unreachable"]
  | _ => []

end EventClass

structure Event where
  cls : EventClass
  attributes : Kwargs
  hostMap : Option Argument

namespace Event

def default : String → Argument
  | "counter" | "verbosity" | "start_line" | "end_line" => .value (.int 0)
  | "failed" | "changed" => .value (.bool false)
  | "event_data" => .value (.dict [])
  | "uuid" | "stdout" | "event" | "playbook" | "play" | "role" | "task" | "host_name"
  | "parent_uuid" => .value (.str "")
  | _ => .value .null

variable (event : Event)

def get (field : String) : Argument := (event.attributes field).getD (default field)

def set (field : String) (argument : Argument) : Event :=
  { event with attributes := Function.update event.attributes field (some argument) }

def name : Option String :=
  match event.get "event" with
  | .value (.str name) => some name
  | _ => none

def eventData : Value :=
  match event.get "event_data" with
  | .value value => value
  | .time _ => .null

end Event

/-- The parser of times, the texts of values, `Truncator(text).chars(1024)`, and what is done
for the stats at the end of a playbook only. -/
structure Surroundings where
  texts : Texts
  parseText : String → Parsed
  truncate : String → String
  updateFromStats : Event → Except Raised Event

variable (env : Surroundings)

/-- `parse_datetime`, which takes texts only. -/
def parseDatetime : Argument → Except Raised (Option Datetime)
  | .time time => .ok (some time)
  | .value (.str text) =>
      match env.parseText text with
      | .time time => .ok (some time)
      | .none => .ok none
      | .valueError => .error .valueError
  | .value _ => .error .typeError

/-- The time of a key is made aware.  A key that is missing and a `ValueError` unset it. -/
def parseTime (key : String) (kwargs : Kwargs) : Except Raised Kwargs :=
  match kwargs key with
  | none => .ok kwargs
  | some argument =>
      match parseDatetime env argument with
      | .ok (some time) =>
          .ok (Function.update kwargs key (some (.time time.aware)))
      | .ok none => .error .attributeError
      | .error .valueError => .ok (Function.update kwargs key none)
      | .error error => .error error

def truncatedKeys : List String := ["play", "role", "task", "playbook"]

def truncateValue (key : String) : Value → Value
  | .str text =>
      if key ∈ truncatedKeys ∧ 1024 < text.length then .str (env.truncate text) else .str text
  | value => value

def sanitizeEventKeys (validKeys : List String) (kwargs : Kwargs) : Except Raised Kwargs :=
  let known : Kwargs := fun key => if key ∈ validKeys then kwargs key else none
  match known "event_data" with
  | none => .ok known
  | some (.value (.dict entries)) =>
      .ok (Function.update known "event_data"
        (some (.value (.dict (entries.map fun entry =>
          (entry.1, truncateValue env entry.1 entry.2))))))
  | some _ => .error .attributeError

def construct (cls : EventClass) (kwargs : Kwargs) : Except Raised Event :=
  if cls.validKeys.all fun key => (kwargs key).isNone || decide (key ∈ cls.fields) then
    .ok ⟨cls, kwargs, none⟩
  else .error .typeError

def Argument.truthy : Argument → Bool
  | .value json => json.truthy
  | .time _ => true

def setTruthy (field : String) (argument : Option Argument) (event : Event) : Event :=
  match argument with
  | some argument => if argument.truthy then event.set field argument else event
  | none => event

def markResults (event : Event) : Event :=
  let failed :=
    if event.name.any (fun name => decide (name ∈ event.cls.failedEvents)) ∧
        (event.eventData.get "ignore_errors").truthy = false then
      event.set "failed" (.value (.bool true))
    else event
  if ((event.eventData.get "res").get "changed").truthy then
    failed.set "changed" (.value (.bool true))
  else failed

def copiedFields : List String := ["playbook", "play", "task", "role"]

def fieldText (data : Value) (field : String) : String :=
  strip (env.texts.text
    (match data with
    | .dict entries => (entries.lookup field).getD (.str "")
    | _ => .str ""))

def updateFromEventData (event : Event) : Except Raised Event := do
  let marked := markResults event
  let updated ← if event.name = some "playbook_on_stats" then env.updateFromStats marked
    else .ok marked
  return copiedFields.foldl (fun updated field =>
    updated.set field (.value (.str (fieldText env event.eventData field)))) updated

def createPlaybookEvent (cls : EventClass) (kwargs : Kwargs) : Except Raised (Option Event) :=
  if (kwargs "job_id").isNone ∧ (kwargs "project_update_id").isNone then .ok none
  else do
    let kwargs ← parseTime env "created" kwargs
    let kwargs ← parseTime env "job_created" kwargs
    let hostMap := (kwargs "host_map").getD (.value (.dict []))
    let kwargs ← sanitizeEventKeys env cls.validKeys (Function.update kwargs "host_map" none)
    let workflowJobId := kwargs "workflow_job_id"
    let event ← construct cls (Function.update kwargs "workflow_job_id" none)
    let event := setTruthy "workflow_job_id" workflowJobId event
    let event := setTruthy "job_created" (kwargs "job_created") event
    some <$> updateFromEventData env { event with hostMap := some hostMap }

def createCommandEvent (cls : EventClass) (kwargs : Kwargs) : Except Raised Event := do
  let kwargs ← parseTime env "created" kwargs
  let kwargs ← sanitizeEventKeys env cls.validKeys kwargs
  let event ← construct cls (Function.update kwargs "workflow_job_id" none)
  return if cls = .adHocCommandEvent then markResults event else event

def createFromData (cls : EventClass) (kwargs : Kwargs) : Except Raised (Option Event) :=
  if cls.isPlaybook then createPlaybookEvent env cls kwargs
  else some <$> createCommandEvent env cls kwargs

/-! ## Constructed events -/

def keptKeys : List String := ["counter", "uuid", "stdout", "start_line", "end_line"]

/-- An event has the counter, uuid, stdout and lines of its message and no unknown attributes, is
created at an aware time if any, and has short texts. -/
structure Constructed (cls : EventClass) (message : Kwargs) (event : Event) : Prop where
  kept : ∀ key ∈ keptKeys, event.get key = (message key).getD (Event.default key)
  known : ∀ key, key ∉ cls.validKeys → key ∉ ["failed", "changed"] → event.attributes key = none
  created : event.get "created" = .value .null ∨
    ∃ clock offset, event.get "created" = .time ⟨clock, some offset⟩
  bounded : cls.isPlaybook = true → ∀ field ∈ copiedFields,
    ∃ text : String, event.get field = .value (.str text) ∧ text.length ≤ 1024

/-- A time that is missing, or a text that is parsed to a time or raises a `ValueError`. -/
def Readable (env : Surroundings) : Option Argument → Prop
  | none | some (.time _) => True
  | some (.value (.str text)) => env.parseText text ≠ .none
  | some (.value _) => False

/-- An entry of the event data whose text is short, is cut short or is that of a value which is
no text and has a short one. -/
def FieldFits (env : Surroundings) : Option Value → Prop
  | none => True
  | some (.str text) => text.length ≤ 1024 ∨ (strip (env.truncate text)).length ≤ 1024
  | some value => (strip (env.texts.str value)).length ≤ 1024

def dataEntry (message : Kwargs) (field : String) : Option Value :=
  match message "event_data" with
  | some (.value (.dict entries)) => entries.lookup field
  | _ => none

/-- The times of a message can be read, a project update has no parent, and the copied entries
of the event data fit. -/
structure Constructible (env : Surroundings) (cls : EventClass) (message : Kwargs) : Prop where
  created : Readable env (message "created")
  jobCreated : cls.isPlaybook = true → Readable env (message "job_created")
  parent : cls = .projectUpdateEvent → message "parent_uuid" = none
  fits : cls.isPlaybook = true → ∀ field ∈ copiedFields, FieldFits env (dataEntry message field)

variable {env : Surroundings} {cls : EventClass} {message kwargs : Kwargs} {event : Event}

/-! ## Times -/

def readTime (env : Surroundings) : Option Argument → Option Argument
  | some (.time time) => some (.time time.aware)
  | some (.value (.str text)) =>
      match env.parseText text with
      | .time time => some (.time time.aware)
      | _ => none
  | _ => none

theorem parseTime_eq_ok {key : String} {parsed : Kwargs} :
    parseTime env key kwargs = .ok parsed ↔
      Readable env (kwargs key) ∧
        parsed = Function.update kwargs key (readTime env (kwargs key)) := by
  rw [parseTime]
  cases hkey : kwargs key with
  | none =>
    have hsame : Function.update kwargs key (readTime env none) = kwargs := by
      change Function.update kwargs key none = kwargs
      rw [← hkey, Function.update_eq_self]
    rw [Readable, true_and, hsame, Except.ok.injEq]
    exact eq_comm
  | some argument =>
    cases argument with
    | time time =>
      simp only [parseDatetime, Readable, readTime, true_and, Except.ok.injEq]
      exact eq_comm
    | value json =>
      cases json with
      | str text =>
        simp only [parseDatetime, Readable, readTime]
        cases env.parseText text with
        | time time =>
          simp only [ne_eq, reduceCtorEq, not_false_eq_true, true_and, Except.ok.injEq]
          exact eq_comm
        | none => simp only [ne_eq, not_true_eq_false, false_and, reduceCtorEq]
        | valueError =>
          simp only [ne_eq, reduceCtorEq, not_false_eq_true, true_and, Except.ok.injEq]
          exact eq_comm
      | _ => simp only [parseDatetime, Readable, false_and, reduceCtorEq]

theorem readTime_aware (argument : Option Argument) : readTime env argument = none ∨
    ∃ clock offset, readTime env argument = some (.time ⟨clock, some offset⟩) := by
  have haware (time : Datetime) : ∃ offset, time.aware = ⟨time.clock, some offset⟩ := by
    obtain ⟨clock, offset⟩ := time
    cases offset with
    | none => exact ⟨0, rfl⟩
    | some offset => exact ⟨offset, rfl⟩
  match argument with
  | none => exact .inl rfl
  | some (.time time) =>
    obtain ⟨offset, htime⟩ := haware time
    exact .inr ⟨time.clock, offset, by rw [readTime, htime]⟩
  | some (.value json) =>
    cases json with
    | str text =>
      rw [readTime]
      cases env.parseText text with
      | time time =>
        obtain ⟨offset, htime⟩ := haware time
        exact .inr ⟨time.clock, offset, congrArg (some ∘ Argument.time) htime⟩
      | none => exact .inl rfl
      | valueError => exact .inl rfl
    | _ => exact .inl rfl

/-! ## Keys -/

theorem mem_validKeys_eventData (cls : EventClass) : "event_data" ∈ cls.validKeys := by
  cases cls <;> decide

theorem wrapup_of_playbook (hplaybook : cls.isPlaybook = true) :
    cls.wrapupEvent = "playbook_on_stats" := by
  cases cls with
  | jobEvent => rfl
  | projectUpdateEvent => rfl
  | _ => exact absurd hplaybook Bool.false_ne_true

/-- The keys that are no fields: one is taken out before, and project updates have no parent. -/
theorem validKeys_cases {key : String} (hkey : key ∈ cls.validKeys) :
    key ∈ cls.fields ∨ key = "workflow_job_id" ∨
      key = "parent_uuid" ∧ cls = .projectUpdateEvent := by
  have hall : (cls.validKeys.all fun key => decide (key ∈ cls.fields ∨ key = "workflow_job_id" ∨
      key = "parent_uuid" ∧ cls = .projectUpdateEvent)) = true := by
    cases cls <;> decide
  exact of_decide_eq_true (List.all_eq_true.mp hall key hkey)

def sanitized (env : Surroundings) (validKeys : List String) (kwargs : Kwargs) : Kwargs :=
  fun key =>
    if key ∈ validKeys then
      if key = "event_data" then
        match kwargs key with
        | some (.value (.dict entries)) => some (.value (.dict (entries.map fun entry =>
            (entry.1, truncateValue env entry.1 entry.2))))
        | _ => none
      else kwargs key
    else none

def HasData (kwargs : Kwargs) : Prop :=
  ∀ data, kwargs "event_data" = some data → ∃ entries, data = .value (.dict entries)

theorem sanitizeEventKeys_eq (hdata : HasData kwargs) :
    sanitizeEventKeys env cls.validKeys kwargs = .ok (sanitized env cls.validKeys kwargs) := by
  have hvalid := mem_validKeys_eventData cls
  rw [sanitizeEventKeys]
  dsimp only
  rw [if_pos hvalid]
  cases hkey : kwargs "event_data" with
  | none =>
    refine congrArg Except.ok (funext fun key => ?_)
    rw [sanitized]
    by_cases hdata : key = "event_data"
    · rw [hdata, if_pos hvalid, if_pos hvalid, if_pos rfl, hkey]
    · rw [if_neg hdata]
  | some data =>
    obtain ⟨entries, rfl⟩ := hdata data hkey
    refine congrArg Except.ok (funext fun key => ?_)
    rw [sanitized]
    by_cases hdata : key = "event_data"
    · rw [hdata, Function.update_self, if_pos hvalid, if_pos rfl, hkey]
    · rw [Function.update_of_ne hdata, if_neg hdata]

theorem construct_eq_ok :
    construct cls kwargs = .ok event ↔
      (∀ key ∈ cls.validKeys, kwargs key ≠ none → key ∈ cls.fields) ∧
        event = ⟨cls, kwargs, none⟩ := by
  have hfields : (cls.validKeys.all fun key => (kwargs key).isNone || decide (key ∈ cls.fields)) =
      true ↔ ∀ key ∈ cls.validKeys, kwargs key ≠ none → key ∈ cls.fields := by
    rw [List.all_eq_true]
    refine forall₂_congr fun key _ => ?_
    rw [Bool.or_eq_true, Option.isNone_iff_eq_none, decide_eq_true_eq, or_iff_not_imp_left]
  rw [construct]
  split
  · next hall =>
    rw [and_iff_right (hfields.mp hall), Except.ok.injEq]
    exact eq_comm
  · next hsome =>
    exact iff_of_false (fun herror => nomatch herror) fun hall => hsome (hfields.mpr hall.1)

def prepared (env : Surroundings) (cls : EventClass) (kwargs : Kwargs) : Kwargs :=
  Function.update (sanitized env cls.validKeys kwargs) "workflow_job_id" none

theorem construct_prepared :
    construct cls (prepared env cls kwargs) = .ok event ↔
      (cls = .projectUpdateEvent → kwargs "parent_uuid" = none) ∧
        event = ⟨cls, prepared env cls kwargs, none⟩ := by
  rw [construct_eq_ok]
  refine and_congr_left fun _ => ?_
  constructor
  · rintro hfields rfl
    by_contra hparent
    have hvalid : "parent_uuid" ∈ EventClass.validKeys .projectUpdateEvent := by decide
    have hfield : "parent_uuid" ∉ EventClass.fields .projectUpdateEvent := by decide
    refine hfield (hfields "parent_uuid" hvalid ?_)
    rw [prepared, Function.update_of_ne (by decide), sanitized, if_pos hvalid, if_neg (by decide)]
    exact hparent
  · intro hparent key hkey hsome
    rcases validKeys_cases hkey with hfield | rfl | ⟨rfl, hclass⟩
    · exact hfield
    · exact absurd (Function.update_self ..) hsome
    · refine absurd ?_ hsome
      rw [prepared, Function.update_of_ne (by decide), sanitized, if_pos hkey, if_neg (by decide)]
      exact hparent hclass

/-! ## Attributes -/

theorem attributes_set (event : Event) (field : String) (argument : Argument) (key : String) :
    (event.set field argument).attributes key =
      if key = field then some argument else event.attributes key := by
  by_cases hkey : key = field
  · rw [if_pos hkey, hkey]
    exact Function.update_self ..
  · rw [if_neg hkey]
    exact Function.update_of_ne hkey ..

theorem attributes_setTruthy_of_ne {field key : String} (hkey : key ≠ field)
    (argument : Option Argument) (event : Event) :
    (setTruthy field argument event).attributes key = event.attributes key := by
  cases argument with
  | none => rfl
  | some argument =>
    rw [setTruthy]
    split
    · rw [attributes_set, if_neg hkey]
    · rfl

theorem attributes_markResults_of_ne {key : String} (hfailed : key ≠ "failed")
    (hchanged : key ≠ "changed") (event : Event) :
    (markResults event).attributes key = event.attributes key := by
  have hmark (cond : Prop) [Decidable cond] (marked : Event) (argument : Argument) (field : String)
      (hkey : key ≠ field) : (if cond then marked.set field argument else marked).attributes key =
        marked.attributes key := by
    split
    · rw [attributes_set, if_neg hkey]
    · rfl
  rw [markResults]
  rw [hmark _ _ _ _ hchanged, hmark _ _ _ _ hfailed]

theorem attributes_foldl_set (text : String → Argument) (fields : List String) (event : Event)
    (key : String) :
    (fields.foldl (fun updated field => updated.set field (text field)) event).attributes key =
      if key ∈ fields then some (text key) else event.attributes key := by
  induction fields generalizing event with
  | nil => rfl
  | cons field fields ih =>
    rw [List.foldl_cons, ih, attributes_set]
    by_cases hkey : key = field
    · simp only [hkey, if_true, List.mem_cons, true_or, ite_self]
    · simp only [hkey, if_false, List.mem_cons, false_or]

theorem prepared_of_mem {key : String} (hkey : key ∈ cls.validKeys)
    (hworkflow : key ≠ "workflow_job_id") (hdata : key ≠ "event_data") :
    prepared env cls kwargs key = kwargs key := by
  rw [prepared, Function.update_of_ne hworkflow, sanitized, if_pos hkey, if_neg hdata]

theorem prepared_of_notMem {key : String} (hkey : key ∉ cls.validKeys) :
    prepared env cls kwargs key = none := by
  by_cases hworkflow : key = "workflow_job_id"
  · rw [hworkflow]
    exact Function.update_self ..
  · rw [prepared, Function.update_of_ne hworkflow, sanitized, if_neg hkey]

/-! ## Events of commands -/

def timed (env : Surroundings) (message : Kwargs) : Kwargs :=
  Function.update message "created" (readTime env (message "created"))

theorem HasData.update (hdata : HasData kwargs) {key : String} (hkey : "event_data" ≠ key)
    (argument : Option Argument) : HasData (Function.update kwargs key argument) := by
  intro data hvalue
  rw [Function.update_of_ne hkey] at hvalue
  exact hdata data hvalue

def commandEvent (env : Surroundings) (cls : EventClass) (message : Kwargs) : Event :=
  let event : Event := ⟨cls, prepared env cls (timed env message), none⟩
  if cls = .adHocCommandEvent then markResults event else event

theorem createCommandEvent_eq_ok (hdata : HasData message) (hcommand : cls.isPlaybook = false) :
    createCommandEvent env cls message = .ok event ↔
      Readable env (message "created") ∧ event = commandEvent env cls message := by
  have hparent : cls = .projectUpdateEvent → timed env message "parent_uuid" = none := by
    rintro rfl
    exact absurd hcommand.symm Bool.false_ne_true
  have htimed : HasData (timed env message) := hdata.update (by decide) _
  rw [createCommandEvent]
  constructor
  · intro hcreate
    obtain ⟨parsed, hparse, hcreate⟩ := bind_eq_ok_iff.mp hcreate
    obtain ⟨hcreated, rfl⟩ := parseTime_eq_ok.mp hparse
    obtain ⟨known, hsanitize, hcreate⟩ := bind_eq_ok_iff.mp hcreate
    obtain rfl := Except.ok.inj ((sanitizeEventKeys_eq htimed).symm.trans hsanitize)
    obtain ⟨constructed, hconstruct, hcreate⟩ := bind_eq_ok_iff.mp hcreate
    obtain ⟨-, rfl⟩ := construct_prepared.mp hconstruct
    exact ⟨hcreated, (Except.ok.inj hcreate).symm⟩
  · rintro ⟨hcreated, rfl⟩
    refine bind_eq_ok_iff.mpr ⟨timed env message, parseTime_eq_ok.mpr ⟨hcreated, rfl⟩, ?_⟩
    refine bind_eq_ok_iff.mpr ⟨_, sanitizeEventKeys_eq htimed, ?_⟩
    exact bind_eq_ok_iff.mpr ⟨_, construct_prepared.mpr ⟨hparent, rfl⟩, rfl⟩

/-! ## Events of playbooks -/

/-- The arguments with the times that were read, without the host map. -/
def playbookKwargs (env : Surroundings) (message : Kwargs) : Kwargs :=
  Function.update (Function.update (timed env message) "job_created"
    (readTime env (message "job_created"))) "host_map" none

def constructedEvent (env : Surroundings) (cls : EventClass) (message : Kwargs) : Event :=
  let kwargs := sanitized env cls.validKeys (playbookKwargs env message)
  let event := setTruthy "workflow_job_id" (kwargs "workflow_job_id")
    ⟨cls, prepared env cls (playbookKwargs env message), none⟩
  { setTruthy "job_created" (kwargs "job_created") event with
    hostMap := some ((message "host_map").getD (.value (.dict []))) }

def playbookEvent (env : Surroundings) (cls : EventClass) (message : Kwargs) : Event :=
  copiedFields.foldl (fun updated field =>
    updated.set field (.value (.str (fieldText env (constructedEvent env cls message).eventData
      field)))) (markResults (constructedEvent env cls message))

theorem attributes_constructedEvent {key : String} (hworkflow : key ≠ "workflow_job_id")
    (hcreated : key ≠ "job_created") :
    (constructedEvent env cls message).attributes key =
      prepared env cls (playbookKwargs env message) key := by
  change (setTruthy "job_created" _ (setTruthy "workflow_job_id" _ _)).attributes key = _
  rw [attributes_setTruthy_of_ne hcreated, attributes_setTruthy_of_ne hworkflow]

theorem name_constructedEvent (hplaybook : cls.isPlaybook = true)
    (hevent : message "event" ≠ some (.value (.str cls.wrapupEvent))) :
    (constructedEvent env cls message).name ≠ some "playbook_on_stats" := by
  have hvalid : "event" ∈ cls.validKeys := by
    cases cls with
    | jobEvent => decide
    | projectUpdateEvent => decide
    | _ => exact absurd hplaybook Bool.false_ne_true
  have hget : (constructedEvent env cls message).get "event" =
      (message "event").getD (Event.default "event") := by
    rw [Event.get, attributes_constructedEvent (by decide) (by decide),
      prepared_of_mem hvalid (by decide) (by decide)]
    rfl
  rw [wrapup_of_playbook hplaybook] at hevent
  rw [Event.name, hget]
  cases hname : message "event" with
  | none => exact fun hsome => absurd (Option.some.inj hsome) (by decide)
  | some argument =>
    rw [hname] at hevent
    rw [Option.getD_some]
    split
    · next name =>
      intro hsame
      exact hevent (congrArg (fun text => some (Argument.value (Value.str text)))
        (Option.some.inj hsame))
    · exact fun hnone => nomatch hnone

theorem hasData_playbookKwargs (hdata : HasData message) : HasData (playbookKwargs env message) :=
  ((hdata.update (by decide) _).update (by decide) _).update (by decide) _

theorem createPlaybookEvent_eq_ok (hplaybook : cls.isPlaybook = true)
    (hreference : (message cls.jobReference).isSome)
    (hevent : message "event" ≠ some (.value (.str cls.wrapupEvent))) (hdata : HasData message) :
    createPlaybookEvent env cls message = .ok (some event) ↔
      Readable env (message "created") ∧ Readable env (message "job_created") ∧
        (cls = .projectUpdateEvent → message "parent_uuid" = none) ∧
        event = playbookEvent env cls message := by
  have hnamed : ¬((message "job_id").isNone ∧ (message "project_update_id").isNone) := by
    rintro ⟨hjob, hproject⟩
    rw [Option.isNone_iff_eq_none] at hjob hproject
    cases cls with
    | jobEvent => exact Option.isSome_iff_ne_none.mp hreference hjob
    | projectUpdateEvent => exact Option.isSome_iff_ne_none.mp hreference hproject
    | _ => exact absurd hplaybook Bool.false_ne_true
  have htimed : HasData (playbookKwargs env message) := hasData_playbookKwargs hdata
  have hupdate : updateFromEventData env (constructedEvent env cls message) =
      .ok (playbookEvent env cls message) := by
    rw [updateFromEventData, if_neg (name_constructedEvent hplaybook hevent)]
    rfl
  rw [createPlaybookEvent, if_neg hnamed]
  constructor
  · intro hcreate
    obtain ⟨parsed, hparse, hcreate⟩ := bind_eq_ok_iff.mp hcreate
    obtain ⟨hcreated, rfl⟩ := parseTime_eq_ok.mp hparse
    obtain ⟨parsed, hparse, hcreate⟩ := bind_eq_ok_iff.mp hcreate
    obtain ⟨hjobCreated, rfl⟩ := parseTime_eq_ok.mp hparse
    obtain ⟨known, hsanitize, hcreate⟩ := bind_eq_ok_iff.mp hcreate
    obtain rfl := Except.ok.inj ((sanitizeEventKeys_eq htimed).symm.trans hsanitize)
    obtain ⟨constructed, hconstruct, hcreate⟩ := bind_eq_ok_iff.mp hcreate
    obtain ⟨hparent, rfl⟩ := construct_prepared.mp hconstruct
    have hsame : (some <$> updateFromEventData env (constructedEvent env cls message) :
        Except Raised (Option Event)) = .ok (some event) := hcreate
    rw [hupdate] at hsame
    exact ⟨hcreated, hjobCreated, hparent, (Option.some.inj (Except.ok.inj hsame)).symm⟩
  · rintro ⟨hcreated, hjobCreated, hparent, rfl⟩
    refine bind_eq_ok_iff.mpr ⟨timed env message, parseTime_eq_ok.mpr ⟨hcreated, rfl⟩, ?_⟩
    refine bind_eq_ok_iff.mpr ⟨_, parseTime_eq_ok.mpr ⟨hjobCreated, rfl⟩, ?_⟩
    refine bind_eq_ok_iff.mpr ⟨_, sanitizeEventKeys_eq htimed, ?_⟩
    refine bind_eq_ok_iff.mpr ⟨_, construct_prepared.mpr ⟨hparent, rfl⟩, ?_⟩
    change (some <$> updateFromEventData env (constructedEvent env cls message) :
        Except Raised (Option Event)) = _
    rw [hupdate]
    rfl

/-! ## Texts -/

theorem length_strip_le (text : String) : (strip text).length ≤ text.length := by
  have hdrop (chars : List Char) : (chars.dropWhile isSpace).length ≤ chars.length :=
    (List.dropWhile_suffix isSpace).length_le
  have hright := hdrop (text.toList.dropWhile isSpace).reverse
  rw [List.length_reverse] at hright
  rw [strip, String.length_ofList, List.length_reverse]
  exact Nat.le_trans hright (hdrop text.toList)

theorem lookup_map_truncateValue (entries : List (String × Value)) (field : String) :
    (entries.map fun entry => (entry.1, truncateValue env entry.1 entry.2)).lookup field =
      (entries.lookup field).map (truncateValue env field) := by
  induction entries with
  | nil => rfl
  | cons entry entries ih =>
    rw [List.map_cons, List.lookup_cons, List.lookup_cons]
    by_cases hfield : field = entry.1
    · rw [hfield, beq_self_eq_true]
      rfl
    · rw [beq_false_of_ne hfield]
      exact ih

theorem fieldText_constructedEvent (hdata : HasData message) (field : String) :
    fieldText env (constructedEvent env cls message).eventData field =
      strip (env.texts.text
        (((dataEntry message field).map (truncateValue env field)).getD (.str ""))) := by
  have hget : (constructedEvent env cls message).get "event_data" =
      (sanitized env cls.validKeys (playbookKwargs env message) "event_data").getD
        (Event.default "event_data") := by
    rw [Event.get, attributes_constructedEvent (by decide) (by decide), prepared,
      Function.update_of_ne (by decide)]
  rw [sanitized, if_pos (mem_validKeys_eventData cls), if_pos rfl] at hget
  have hmessage : playbookKwargs env message "event_data" = message "event_data" := rfl
  rw [hmessage] at hget
  simp only [fieldText, Event.eventData, dataEntry, hget]
  cases hentries : message "event_data" with
  | none => rfl
  | some data =>
    obtain ⟨entries, rfl⟩ := hdata data hentries
    exact congrArg (fun found : Option Value => strip (env.texts.text (found.getD (.str ""))))
      (lookup_map_truncateValue entries field)

theorem length_strip_nil : (strip "").length ≤ 1024 := by decide

theorem fieldFits_iff {field : String} (hfield : field ∈ truncatedKeys) (value : Option Value) :
    (strip (env.texts.text ((value.map (truncateValue env field)).getD (.str "")))).length ≤ 1024 ↔
      FieldFits env value := by
  cases value with
  | none => exact iff_of_true length_strip_nil trivial
  | some value =>
    rw [Option.map_some, Option.getD_some]
    cases value with
    | str text =>
      rw [truncateValue, FieldFits]
      by_cases hlong : 1024 < text.length
      · rw [if_pos ⟨hfield, hlong⟩, or_iff_right (Nat.not_le_of_gt hlong), Texts.text]
      · rw [if_neg fun hboth => hlong hboth.2, Texts.text]
        have hshort : text.length ≤ 1024 := Nat.le_of_not_lt hlong
        exact iff_of_true (Nat.le_trans (length_strip_le text) hshort) (.inl hshort)
    | _ => rfl

/-! ## All messages -/

theorem mem_validKeys_of_kept {key : String} (hkey : key ∈ "created" :: keptKeys) :
    key ∈ cls.validKeys := by
  have hall : (("created" :: keptKeys).all fun key => decide (key ∈ cls.validKeys)) = true := by
    cases cls <;> decide
  exact of_decide_eq_true (List.all_eq_true.mp hall key hkey)

theorem kept_ne {key : String} (hkey : key ∈ "created" :: keptKeys) :
    key ∉ ["failed", "changed", "workflow_job_id", "job_created", "event_data", "host_map"] ∧
      key ∉ copiedFields := by
  have hall : (("created" :: keptKeys).all fun key =>
      decide (key ∉ ["failed", "changed", "workflow_job_id", "job_created", "event_data",
        "host_map"] ∧ key ∉ copiedFields)) = true := by decide
  exact of_decide_eq_true (List.all_eq_true.mp hall key hkey)

theorem attributes_commandEvent {key : String} (hkey : key ∉ ["failed", "changed"]) :
    (commandEvent env cls message).attributes key = prepared env cls (timed env message) key := by
  simp only [List.mem_cons, List.not_mem_nil, or_false, not_or] at hkey
  rw [commandEvent]
  split
  · rw [attributes_markResults_of_ne hkey.1 hkey.2]
  · rfl

theorem attributes_playbookEvent {key : String}
    (hkey : key ∉ ["failed", "changed", "workflow_job_id", "job_created"])
    (hcopied : key ∉ copiedFields) :
    (playbookEvent env cls message).attributes key =
      prepared env cls (playbookKwargs env message) key := by
  simp only [List.mem_cons, List.not_mem_nil, or_false, not_or] at hkey
  rw [playbookEvent, attributes_foldl_set, if_neg hcopied,
    attributes_markResults_of_ne hkey.1 hkey.2.1, attributes_constructedEvent hkey.2.2.1 hkey.2.2.2]

theorem prepared_kept {key : String} (hkey : key ∈ "created" :: keptKeys) {kwargs : Kwargs}
    (hkwargs : kwargs key = timed env message key) :
    prepared env cls kwargs key = timed env message key := by
  have hne := (kept_ne hkey).1
  simp only [List.mem_cons, List.not_mem_nil, or_false, not_or] at hne
  rw [prepared_of_mem (mem_validKeys_of_kept hkey) hne.2.2.1 hne.2.2.2.2.1, hkwargs]

theorem playbookKwargs_kept {key : String} (hkey : key ∈ "created" :: keptKeys) :
    playbookKwargs env message key = timed env message key := by
  have hne := (kept_ne hkey).1
  simp only [List.mem_cons, List.not_mem_nil, or_false, not_or] at hne
  rw [playbookKwargs, Function.update_of_ne hne.2.2.2.2.2, Function.update_of_ne hne.2.2.2.1]

theorem timed_kept {key : String} (hkey : key ∈ keptKeys) :
    timed env message key = message key := by
  refine Function.update_of_ne ?_ ..
  rintro rfl
  exact absurd hkey (by decide)

theorem keeps_of_timed
    (htimed : ∀ key ∈ "created" :: keptKeys, event.attributes key = timed env message key) :
    (∀ key ∈ keptKeys, event.get key = (message key).getD (Event.default key)) ∧
      (event.get "created" = .value .null ∨
        ∃ clock offset, event.get "created" = .time ⟨clock, some offset⟩) := by
  constructor
  · intro key hkey
    rw [Event.get, htimed key (List.mem_cons_of_mem _ hkey), timed_kept hkey]
  · have hcreated : event.attributes "created" = readTime env (message "created") :=
      (htimed "created" List.mem_cons_self).trans (Function.update_self ..)
    rw [Event.get, hcreated]
    rcases readTime_aware (message "created") with hnone | ⟨clock, offset, htime⟩
    · rw [hnone]
      exact .inl rfl
    · rw [htime]
      exact .inr ⟨clock, offset, rfl⟩

theorem constructed_commandEvent (hcommand : cls.isPlaybook = false) :
    Constructed cls message (commandEvent env cls message) := by
  obtain ⟨hkept, hcreated⟩ := @keeps_of_timed env message
    (commandEvent env cls message) fun key hkey => by
      have hne := (kept_ne hkey).1
      simp only [List.mem_cons, List.not_mem_nil, or_false, not_or] at hne
      rw [attributes_commandEvent, prepared_kept hkey rfl]
      simp only [List.mem_cons, List.not_mem_nil, or_false, not_or]
      exact ⟨hne.1, hne.2.1⟩
  exact
    { kept := hkept
      known := fun key hkey hother => by
        rw [attributes_commandEvent hother, prepared_of_notMem hkey]
      created := hcreated
      bounded := fun hplaybook => absurd (hcommand.symm.trans hplaybook) Bool.false_ne_true }

theorem bounded_playbookEvent_iff (hdata : HasData message) :
    (∀ field ∈ copiedFields, ∃ text : String,
      (playbookEvent env cls message).get field = .value (.str text) ∧ text.length ≤ 1024) ↔
      ∀ field ∈ copiedFields, FieldFits env (dataEntry message field) := by
  refine forall₂_congr fun field hfield => ?_
  have htruncated : field ∈ truncatedKeys := by
    have hall : (copiedFields.all fun field => decide (field ∈ truncatedKeys)) = true := by decide
    exact of_decide_eq_true (List.all_eq_true.mp hall field hfield)
  rw [← fieldFits_iff htruncated, ← @fieldText_constructedEvent env cls message hdata, Event.get,
    playbookEvent, attributes_foldl_set, if_pos hfield, Option.getD_some]
  constructor
  · rintro ⟨text, hsame, hlength⟩
    rw [Argument.value.injEq, Value.str.injEq] at hsame
    rwa [hsame]
  · exact fun hlength => ⟨_, rfl, hlength⟩

theorem constructed_playbookEvent_iff (hplaybook : cls.isPlaybook = true)
    (hdata : HasData message) :
    Constructed cls message (playbookEvent env cls message) ↔
      ∀ field ∈ copiedFields, FieldFits env (dataEntry message field) := by
  rw [← @bounded_playbookEvent_iff env cls message hdata]
  refine ⟨fun hconstructed => hconstructed.bounded hplaybook, fun hbounded => ?_⟩
  obtain ⟨hkept, hcreated⟩ := @keeps_of_timed env message
    (playbookEvent env cls message) fun key hkey => by
      obtain ⟨hne, hcopied⟩ := kept_ne hkey
      simp only [List.mem_cons, List.not_mem_nil, or_false, not_or] at hne
      rw [attributes_playbookEvent _ hcopied, prepared_kept hkey (playbookKwargs_kept hkey)]
      simp only [List.mem_cons, List.not_mem_nil, or_false, not_or]
      exact ⟨hne.1, hne.2.1, hne.2.2.1, hne.2.2.2.1⟩
  have hvalid : (("workflow_job_id" :: "job_created" :: copiedFields).all fun key =>
      decide (key ∈ cls.validKeys)) = true := by
    cases cls with
    | jobEvent => decide
    | projectUpdateEvent => decide
    | _ => exact absurd hplaybook Bool.false_ne_true
  refine ⟨hkept, fun key hkey hother => ?_, hcreated, fun _ => hbounded⟩
  have hset : key ∉ "workflow_job_id" :: "job_created" :: copiedFields := fun hmem =>
    hkey (of_decide_eq_true (List.all_eq_true.mp hvalid key hmem))
  simp only [List.mem_cons, List.not_mem_nil, or_false, not_or] at hset hother
  rw [attributes_playbookEvent _ (by simpa only [copiedFields] using hset.2.2),
    prepared_of_notMem hkey]
  simp only [List.mem_cons, List.not_mem_nil, or_false, not_or]
  exact ⟨hother.1, hother.2, hset.1, hset.2.1⟩

/-- A message that names a job is made an event exactly when its times can be read, a project
update has no parent and the copied entries of its data fit. -/
theorem constructed_iff_constructible (hreference : (message cls.jobReference).isSome)
    (hevent : message "event" ≠ some (.value (.str cls.wrapupEvent))) (hdata : HasData message) :
    (∃ event, createFromData env cls message = .ok (some event) ∧ Constructed cls message event) ↔
      Constructible env cls message := by
  rw [createFromData]
  by_cases hplaybook : cls.isPlaybook = true
  · simp only [if_pos hplaybook, createPlaybookEvent_eq_ok hplaybook hreference hevent hdata]
    constructor
    · rintro ⟨event, ⟨hcreated, hjobCreated, hparent, rfl⟩, hconstructed⟩
      exact
        { created := hcreated
          jobCreated := fun _ => hjobCreated
          parent := hparent
          fits := fun _ => (constructed_playbookEvent_iff hplaybook hdata).mp hconstructed }
    · intro hconstructible
      exact ⟨_, ⟨hconstructible.created, hconstructible.jobCreated hplaybook,
        hconstructible.parent, rfl⟩,
        (constructed_playbookEvent_iff hplaybook hdata).mpr (hconstructible.fits hplaybook)⟩
  · have hcommand : cls.isPlaybook = false := Bool.eq_false_iff.mpr hplaybook
    have hmap (event : Event) :
        (some <$> createCommandEvent env cls message : Except Raised (Option Event)) =
          .ok (some event) ↔ createCommandEvent env cls message = .ok event := by
      cases createCommandEvent env cls message with
      | error error => exact iff_of_false (fun hok => nomatch hok) fun hok => nomatch hok
      | ok created =>
        change Except.ok (some created) = Except.ok (some event) ↔ _
        rw [Except.ok.injEq, Except.ok.injEq, Option.some.injEq]
    simp only [if_neg hplaybook, hmap, createCommandEvent_eq_ok hdata hcommand]
    constructor
    · rintro ⟨event, ⟨hcreated, rfl⟩, -⟩
      exact
        { created := hcreated
          jobCreated := fun hother => absurd hother hplaybook
          parent := fun hproject => absurd (hproject ▸ rfl) hplaybook
          fits := fun hother => absurd hother hplaybook }
    · intro hconstructible
      exact ⟨_, ⟨hconstructible.created, rfl⟩, constructed_commandEvent hcommand⟩

def sampleSurroundings : Surroundings where
  texts := ⟨fun _ => "", fun _ => ""⟩
  parseText text := if text = "2018-01-01T00:00:00" then .time ⟨1514764800, none⟩ else .none
  truncate text := String.ofList (text.toList.take 1023 ++ ['…'])
  updateFromStats := .ok

def taskMessage (created : String) : Kwargs
  | "job_id" => some (.value (.int 123))
  | "event" => some (.value (.str "playbook_on_task_start"))
  | "created" => some (.value (.str created))
  | "event_data" => some (.value (.dict [("task", .str "install")]))
  | _ => none

theorem hasData_taskMessage (created : String) : HasData (taskMessage created) :=
  fun _ hdata => ⟨[("task", .str "install")], (Option.some.inj hdata).symm⟩

theorem taskMessage_constructed :
    ∃ event, createFromData sampleSurroundings .jobEvent (taskMessage "2018-01-01T00:00:00") =
        .ok (some event) ∧
      Constructed .jobEvent (taskMessage "2018-01-01T00:00:00") event := by
  refine (constructed_iff_constructible rfl ?_ (hasData_taskMessage _)).mpr
    { created := fun hnone => nomatch hnone
      jobCreated := fun _ => trivial
      parent := fun hproject => nomatch hproject
      fits := fun _ field hfield => ?_ }
  · intro hevent
    rw [taskMessage, Option.some.injEq, Argument.value.injEq, Value.str.injEq] at hevent
    exact absurd hevent (by decide)
  · simp only [copiedFields, List.mem_cons, List.not_mem_nil, or_false] at hfield
    rcases hfield with rfl | rfl | rfl | rfl
    · trivial
    · trivial
    · exact .inl (by decide)
    · trivial

theorem unreadable_time_raises :
    createFromData sampleSurroundings .jobEvent (taskMessage "yesterday") =
        .error .attributeError ∧
      ¬ ∃ event, createFromData sampleSurroundings .jobEvent (taskMessage "yesterday") =
          .ok (some event) ∧
        Constructed .jobEvent (taskMessage "yesterday") event := by
  have hraised : createFromData sampleSurroundings .jobEvent (taskMessage "yesterday") =
      .error .attributeError := rfl
  refine ⟨hraised, ?_⟩
  rintro ⟨event, hcreated, -⟩
  exact nomatch hraised.symm.trans hcreated

end Forail.EventConstruction
