import Mathlib.Data.List.Basic
import Mathlib.Data.Int.Notation

/-!
# Event rules

An event rule of the event-driven automation matches webhook events with conditions and
names the actions to execute.  Each event that is received has a row in the event log,
whose status follows its evaluation.
-/

namespace Forail.EventRules

abbrev Time := ℕ

inductive SourceType where
  | webhookGeneric
  | webhookGithub
  | webhookGitlab
  | alertmanager
  | pagerduty
  | datadog
  | cloudwatch
  deriving DecidableEq, Repr

inductive ActionType where
  | launchJobTemplate
  | launchWorkflow
  | sendNotification
  | unknown (name : String)
  deriving DecidableEq, Repr

structure Condition where
  jinja2Expression : String
  description : String
  deriving DecidableEq, Repr

structure Action where
  actionType : ActionType
  targetId : ℕ
  description : String
  deriving DecidableEq, Repr

structure EventRule where
  enabled : Bool
  sourceType : SourceType
  conditions : List Condition
  actions : List Action
  throttleSeconds : ℕ
  lastFiredAt : Option Time
  fireCount : ℕ
  deriving DecidableEq, Repr

namespace EventRule

def microsecondsPerSecond : ℕ := 1000000

def isThrottled (rule : EventRule) (now : Time) : Bool :=
  if rule.throttleSeconds = 0 then false
  else
    match rule.lastFiredAt with
    | none => false
    | some lastFiredAt =>
        let elapsed : ℤ := now - lastFiredAt
        decide (elapsed < rule.throttleSeconds * microsecondsPerSecond)

def recordFiring (stored : EventRule) (now : Time) : EventRule :=
  { stored with lastFiredAt := some now, fireCount := stored.fireCount + 1 }

theorem le_of_not_throttled {rule : EventRule} {now lastFiredAt : ℕ}
    (hfree : rule.isThrottled now = false) (hpos : 0 < rule.throttleSeconds)
    (hlast : rule.lastFiredAt = some lastFiredAt) :
    lastFiredAt + rule.throttleSeconds * microsecondsPerSecond ≤ now := by
  rw [isThrottled, if_neg (Nat.pos_iff_ne_zero.mp hpos), hlast] at hfree
  have helapsed : ¬ (now : ℤ) - lastFiredAt < rule.throttleSeconds * microsecondsPerSecond :=
    of_decide_eq_false hfree
  omega

end EventRule

inductive LogStatus where
  | received
  | matched
  | unmatched
  | throttled
  | actionFired
  | actionFailed
  | error
  | signatureFailed
  deriving DecidableEq, Repr

def LogStatus.Acted (status : LogStatus) : Prop :=
  status ∈ [.matched, .actionFired, .actionFailed]

instance : DecidablePred LogStatus.Acted := fun status =>
  inferInstanceAs (Decidable (status ∈ [.matched, .actionFired, .actionFailed]))

structure ConditionResult where
  expression : String
  description : String
  matched : Bool
  error : Option String
  deriving DecidableEq, Repr

structure ActionResult where
  actionType : ActionType
  targetId : ℕ
  description : String
  failed : Bool
  jobId : Option ℕ
  error : Option String
  deriving DecidableEq, Repr

structure EventLog (Payload : Type*) where
  eventGuid : String
  payload : Payload
  status : LogStatus
  errorDetail : String
  conditionsMatched : Bool
  conditionResults : List ConditionResult
  actionsTriggered : List ActionResult
  jobId : Option ℕ

def EventLog.received {Payload : Type*} (eventGuid : String) (payload : Payload) :
    EventLog Payload where
  eventGuid := eventGuid
  payload := payload
  status := .received
  errorDetail := ""
  conditionsMatched := false
  conditionResults := []
  actionsTriggered := []
  jobId := none

/-! ## Conditions and actions -/

def isSpace (char : Char) : Bool :=
  let code := char.toNat
  (9 ≤ code && code ≤ 13) || (28 ≤ code && code ≤ 32) || (8192 ≤ code && code ≤ 8202) ||
    [133, 160, 5760, 8232, 8233, 8239, 8287, 12288].contains code

def strip (text : String) : String :=
  String.ofList ((text.toList.dropWhile isSpace).reverse.dropWhile isSpace).reverse

def templateStr (expr : String) : String :=
  "\x7b% if " ++ expr ++ " %\x7d__TRUE__\x7b% else %\x7d__FALSE__\x7b% endif %\x7d"

/-- `_evaluate_conditions`, where `render` renders a template with the payload and the
headers of the event. -/
def evaluateConditions {Payload : Type*} (render : String → Payload → Except String String)
    (conditions : List Condition) (payload : Payload) : Bool × List ConditionResult :=
  let results := conditions.map fun condition =>
    match render (templateStr condition.jinja2Expression) payload with
    | .error error =>
        { expression := condition.jinja2Expression, description := condition.description
          matched := false, error := some error : ConditionResult }
    | .ok rendered =>
        { expression := condition.jinja2Expression, description := condition.description
          matched := decide (strip rendered = "__TRUE__"), error := none }
  (results.all (·.matched), results)

/-- `_execute_action`, where the launch ends with the id of its job, or the action with an
exception. -/
def executeAction (action : Action) (outcome : Except String ℕ) : ActionResult :=
  let result (failed : Bool) (jobId : Option ℕ) (error : Option String) : ActionResult :=
    { actionType := action.actionType, targetId := action.targetId
      description := action.description, failed := failed, jobId := jobId, error := error }
  match action.actionType with
  | .unknown name => result true none (some ("Unknown action_type: " ++ name))
  | .sendNotification =>
      match outcome with
      | .ok _ => result false none none
      | .error error => result true none (some error)
  | _ =>
      match outcome with
      | .ok jobId => result false (some jobId) none
      | .error error => result true none (some error)

namespace EventLog

variable {Payload : Type*}

def saveActions (eventLog copy : EventLog Payload) (triggered : List ActionResult) :
    EventLog Payload :=
  { eventLog with
    actionsTriggered := triggered
    status := if triggered.any (·.failed) then .actionFailed else .actionFired
    jobId := triggered.foldl (fun jobId result =>
      match result.jobId with
      | some id => if id ≠ 0 then some id else jobId
      | none => jobId) copy.jobId }

theorem acted_saveActions (eventLog copy : EventLog Payload) (triggered : List ActionResult) :
    (eventLog.saveActions copy triggered).status.Acted := by
  have hstatus : ∀ failed : Bool,
      LogStatus.Acted (if failed then .actionFailed else .actionFired) := by decide
  exact hstatus _

end EventLog

/-! ## The verdict on an event -/

inductive Verdict where
  | ruleDeleted
  | ruleDisabled
  | throttled
  | unmatched (results : List ConditionResult)
  | matched (results : List ConditionResult)
  deriving DecidableEq, Repr

def verdict {Payload : Type*} (render : String → Payload → Except String String) (now : Time)
    (rule : Option EventRule) (payload : Payload) : Verdict :=
  match rule with
  | none => .ruleDeleted
  | some rule =>
      if rule.enabled = false then .ruleDisabled
      else if rule.isThrottled now then .throttled
      else
        let evaluated := evaluateConditions render rule.conditions payload
        if evaluated.1 then .matched evaluated.2 else .unmatched evaluated.2

def Verdict.save {Payload : Type*} (eventLog : EventLog Payload) : Verdict → EventLog Payload
  | ruleDeleted => { eventLog with status := .error, errorDetail := "Event rule has been deleted" }
  | ruleDisabled => { eventLog with status := .unmatched, errorDetail := "Rule is disabled" }
  | throttled => { eventLog with status := .throttled }
  | unmatched results =>
      { eventLog with
        conditionsMatched := false, conditionResults := results, status := .unmatched }
  | matched results =>
      { eventLog with conditionsMatched := true, conditionResults := results, status := .matched }

@[simp]
theorem Verdict.eventGuid_save {Payload : Type*} (eventLog : EventLog Payload)
    (verdict : Verdict) : (verdict.save eventLog).eventGuid = eventLog.eventGuid := by
  cases verdict <;> rfl

theorem Verdict.acted_save_matched {Payload : Type*} (eventLog : EventLog Payload)
    (results : List ConditionResult) : ((matched results).save eventLog).status.Acted := by
  have hacted : LogStatus.Acted .matched := by decide
  exact hacted

theorem exists_rule_of_matched {Payload : Type*}
    {render : String → Payload → Except String String} {now : Time} {rule : Option EventRule}
    {payload : Payload} {results : List ConditionResult}
    (hmatched : verdict render now rule payload = .matched results) :
    ∃ found, rule = some found ∧ found.enabled = true ∧ found.isThrottled now = false := by
  cases rule with
  | none => exact Verdict.noConfusion hmatched
  | some found =>
    refine ⟨found, rfl, ?_⟩
    cases henabled : found.enabled with
    | false => simp [verdict, henabled] at hmatched
    | true =>
      cases hthrottled : found.isThrottled now with
      | true => simp [verdict, henabled, hthrottled] at hmatched
      | false => exact ⟨rfl, rfl⟩

end Forail.EventRules
