import Forail.Core.Runs
import Forail.Eda.EventRules
import Mathlib.Data.List.Basic
import Mathlib.Logic.Function.Basic

/-!
# Evaluations of an event rule

The receiver looks for an earlier event with the same GUID and then creates the row of
the event.  An evaluation loads that row with a copy of the rule, decides on the copy,
executes the actions one after the other and records the firing.  All of these are
separate steps, and the steps of different requests and evaluations interleave.
-/

namespace Forail.EventRules

variable {Payload : Type*}

abbrev Client := ℕ
abbrev LogId := ℕ

structure Env (Payload : Type*) where
  render : String → Payload → Except String String
  sha1Hexdigest : List UInt8 → String

/-- A webhook request, with the answer of `check_signature`; headers and fields that are
missing are empty. -/
structure Request (Payload : Type*) where
  signed : Bool
  githubDelivery : String
  requestId : String
  eventId : String
  body : List UInt8
  payload : Payload

def extractEventGuid (env : Env Payload) (request : Request Payload) : SourceType → String
  | .webhookGithub => request.githubDelivery
  | .webhookGitlab => env.sha1Hexdigest request.body
  | .webhookGeneric => if request.requestId ≠ "" then request.requestId else request.eventId
  | _ => request.requestId

def previouslyReceived (logs : List (EventLog Payload)) (eventGuid : String) : Bool :=
  eventGuid ≠ "" && logs.any fun eventLog =>
    eventLog.eventGuid = eventGuid && eventLog.status ∈ [.matched, .actionFired]

/-- The row that the receiver is going to create, when it takes the request.  What it
writes for a wrong signature is rolled back with the request. -/
def accepted (env : Env Payload) (rule : Option EventRule) (logs : List (EventLog Payload))
    (request : Request Payload) : Option (EventLog Payload) :=
  match rule with
  | none => none
  | some rule =>
      if rule.enabled = false then none
      else if request.signed = false then none
      else
        let eventGuid := extractEventGuid env request rule.sourceType
        if previouslyReceived logs eventGuid then none
        else if 1048576 < request.body.length then none
        else some (.received eventGuid request.payload)

inductive Stage where
  | loaded (rule : Option EventRule)
  | matched (rule : EventRule)
  | executing (rule : EventRule) (actions : List Action) (triggered : List ActionResult)
  | executed (rule : EventRule)
  deriving DecidableEq, Repr

/-- The evaluation executes actions, and has not recorded the firing. -/
def Stage.started : Stage → Bool
  | loaded _ => false
  | matched _ => false
  | executing _ _ _ => true
  | executed _ => true

structure Evaluation (Payload : Type*) where
  logId : LogId
  eventLog : EventLog Payload
  stage : Stage

structure Firing where
  time : Time
  eventGuid : String
  deriving DecidableEq, Repr

structure EdaState (Payload : Type*) where
  rule : Option EventRule
  logs : List (EventLog Payload)
  now : Time
  deliveries : Client → Option (EventLog Payload)
  evaluations : Client → Option (Evaluation Payload)
  firings : List Firing

namespace EdaState

def initial (rule : EventRule) (now : Time) : EdaState Payload where
  rule := some rule
  logs := []
  now := now
  deliveries := fun _ => none
  evaluations := fun _ => none
  firings := []

variable (state : EdaState Payload)

def withEvaluation (client : Client) (evaluation : Option (Evaluation Payload)) :
    EdaState Payload :=
  { state with evaluations := Function.update state.evaluations client evaluation }

def withLog (logId : LogId) (save : EventLog Payload → EventLog Payload) : EdaState Payload :=
  { state with logs := state.logs.modify logId save }

/-- The receiver up to its answer, or to the row it is going to create. -/
def deliver (env : Env Payload) (client : Client) (request : Request Payload) :
    EdaState Payload :=
  { state with
    deliveries := Function.update state.deliveries client
      (accepted env state.rule state.logs request) }

def create (client : Client) (eventLog : EventLog Payload) : EdaState Payload :=
  { state with
    logs := state.logs ++ [eventLog]
    deliveries := Function.update state.deliveries client none }

def load (client : Client) (logId : LogId) (eventLog : EventLog Payload) : EdaState Payload :=
  state.withEvaluation client (some ⟨logId, eventLog, .loaded state.rule⟩)

/-- The evaluation decides on its copies, and goes on only with a match. -/
def check (env : Env Payload) (client : Client) (evaluation : Evaluation Payload) :
    Option (EdaState Payload) :=
  match evaluation.stage with
  | .loaded rule =>
      let decision := verdict env.render state.now rule evaluation.eventLog.payload
      let next : Option (Evaluation Payload) :=
        match decision with
        | .matched _ => rule.map fun rule => { evaluation with stage := .matched rule }
        | _ => none
      some ((state.withLog evaluation.logId fun stored => decision.save stored).withEvaluation
        client next)
  | _ => none

def fire (client : Client) (evaluation : Evaluation Payload) : Option (EdaState Payload) :=
  match evaluation.stage with
  | .matched rule =>
      some { state.withEvaluation client
          (some { evaluation with stage := .executing rule rule.actions [] }) with
        firings := state.firings ++ [⟨state.now, evaluation.eventLog.eventGuid⟩] }
  | _ => none

def execute (client : Client) (outcome : Except String ℕ) (evaluation : Evaluation Payload) :
    Option (EdaState Payload) :=
  match evaluation.stage with
  | .executing rule (action :: actions) triggered =>
      some (state.withEvaluation client (some { evaluation with
        stage := .executing rule actions (triggered ++ [executeAction action outcome]) }))
  | _ => none

def saveActions (client : Client) (evaluation : Evaluation Payload) :
    Option (EdaState Payload) :=
  match evaluation.stage with
  | .executing rule [] triggered =>
      some ((state.withLog evaluation.logId fun stored =>
          stored.saveActions evaluation.eventLog triggered).withEvaluation client
        (some { evaluation with stage := .executed rule }))
  | _ => none

/-- `record_firing`, which raises when the rule has been deleted; the evaluation ends in
both cases. -/
def recordFiring (client : Client) (evaluation : Evaluation Payload) :
    Option (EdaState Payload) :=
  match evaluation.stage with
  | .executed _ =>
      some { state.withEvaluation client none with
        rule := state.rule.map fun stored => stored.recordFiring state.now }
  | _ => none

end EdaState

inductive Event (Payload : Type*) where
  | clock (time : Time)
  | deliver (client : Client) (request : Request Payload)
  | create (client : Client)
  | load (client : Client) (logId : LogId)
  | check (client : Client)
  | fire (client : Client)
  | execute (client : Client) (outcome : Except String ℕ)
  | saveActions (client : Client)
  | recordFiring (client : Client)
  | interrupt (client : Client)
  | deleteRule

def step (env : Env Payload) (state : EdaState Payload) : Event Payload →
    Option (EdaState Payload)
  | .clock time => if state.now ≤ time then some { state with now := time } else none
  | .deliver client request => some (state.deliver env client request)
  | .create client => (state.deliveries client).map (state.create client)
  | .load client logId =>
      match state.evaluations client with
      | none => state.logs[logId]?.map (state.load client logId)
      | some _ => none
  | .check client => (state.evaluations client).bind (state.check env client)
  | .fire client => (state.evaluations client).bind (state.fire client)
  | .execute client outcome => (state.evaluations client).bind (state.execute client outcome)
  | .saveActions client => (state.evaluations client).bind (state.saveActions client)
  | .recordFiring client => (state.evaluations client).bind (state.recordFiring client)
  -- the worker dies, or a database error ends the task
  | .interrupt client =>
      (state.evaluations client).map fun _ => state.withEvaluation client none
  | .deleteRule => some { state with rule := none }

/-! ## What a step does -/

variable {env : Env Payload} {state state' : EdaState Payload} {client : Client}

theorem check_eq_some (hstep : step env state (.check client) = some state') :
    ∃ evaluation rule, state.evaluations client = some evaluation ∧
      evaluation.stage = .loaded rule ∧
        ((state' = (state.withLog evaluation.logId fun stored =>
              (verdict env.render state.now rule evaluation.eventLog.payload).save
                stored).withEvaluation client none) ∨
          ∃ found results, rule = some found ∧ found.isThrottled state.now = false ∧
            state' = (state.withLog evaluation.logId fun stored =>
              (Verdict.matched results).save stored).withEvaluation client
                (some { evaluation with stage := .matched found })) := by
  obtain ⟨evaluation, hevaluation, hcheck⟩ := Option.bind_eq_some_iff.mp hstep
  rw [EdaState.check] at hcheck
  split at hcheck
  · next rule hstage =>
    refine ⟨evaluation, rule, hevaluation, hstage, ?_⟩
    have hstate := Option.some.inj hcheck
    cases hdecision : verdict env.render state.now rule evaluation.eventLog.payload with
    | matched results =>
      obtain ⟨found, rfl, -, hfree⟩ := exists_rule_of_matched hdecision
      rw [hdecision] at hstate
      exact Or.inr ⟨found, results, rfl, hfree, hstate.symm⟩
    | _ =>
      rw [hdecision] at hstate
      exact Or.inl hstate.symm
  · exact absurd hcheck (Option.some_ne_none _).symm

theorem fire_eq_some (hstep : step env state (.fire client) = some state') :
    ∃ evaluation rule, state.evaluations client = some evaluation ∧
      evaluation.stage = .matched rule ∧
        state' = { state.withEvaluation client
            (some { evaluation with stage := .executing rule rule.actions [] }) with
          firings := state.firings ++ [⟨state.now, evaluation.eventLog.eventGuid⟩] } := by
  obtain ⟨evaluation, hevaluation, hfire⟩ := Option.bind_eq_some_iff.mp hstep
  rw [EdaState.fire] at hfire
  split at hfire
  · next rule hstage => exact ⟨evaluation, rule, hevaluation, hstage, (Option.some.inj hfire).symm⟩
  · exact absurd hfire (Option.some_ne_none _).symm

theorem execute_eq_some {outcome : Except String ℕ}
    (hstep : step env state (.execute client outcome) = some state') :
    ∃ evaluation stage, state.evaluations client = some evaluation ∧
      evaluation.stage.started = true ∧ stage.started = true ∧
        state' = state.withEvaluation client (some { evaluation with stage := stage }) := by
  obtain ⟨evaluation, hevaluation, hexecute⟩ := Option.bind_eq_some_iff.mp hstep
  rw [EdaState.execute] at hexecute
  split at hexecute
  · next hstage =>
    exact ⟨evaluation, _, hevaluation, by rw [hstage]; rfl, rfl, (Option.some.inj hexecute).symm⟩
  · exact absurd hexecute (Option.some_ne_none _).symm

theorem saveActions_eq_some (hstep : step env state (.saveActions client) = some state') :
    ∃ evaluation rule triggered, state.evaluations client = some evaluation ∧
      evaluation.stage.started = true ∧
        state' = (state.withLog evaluation.logId fun stored =>
            stored.saveActions evaluation.eventLog triggered).withEvaluation client
          (some { evaluation with stage := .executed rule }) := by
  obtain ⟨evaluation, hevaluation, hsave⟩ := Option.bind_eq_some_iff.mp hstep
  rw [EdaState.saveActions] at hsave
  split at hsave
  · next rule triggered hstage =>
    exact ⟨evaluation, rule, triggered, hevaluation, by rw [hstage]; rfl,
      (Option.some.inj hsave).symm⟩
  · exact absurd hsave (Option.some_ne_none _).symm

theorem recordFiring_eq_some (hstep : step env state (.recordFiring client) = some state') :
    ∃ evaluation, state.evaluations client = some evaluation ∧ evaluation.stage.started = true ∧
      state' = { state.withEvaluation client none with
        rule := state.rule.map fun stored => stored.recordFiring state.now } := by
  obtain ⟨evaluation, hevaluation, hrecord⟩ := Option.bind_eq_some_iff.mp hstep
  rw [EdaState.recordFiring] at hrecord
  split at hrecord
  · next hstage =>
    exact ⟨evaluation, hevaluation, by rw [hstage]; rfl, (Option.some.inj hrecord).symm⟩
  · exact absurd hrecord (Option.some_ne_none _).symm

theorem load_eq_some {logId : LogId} (hstep : step env state (.load client logId) = some state') :
    ∃ eventLog, state.evaluations client = none ∧ state.logs[logId]? = some eventLog ∧
      state' = state.load client logId eventLog := by
  rw [step] at hstep
  split at hstep
  · next hidle =>
    obtain ⟨eventLog, hlog, hstate⟩ := Option.map_eq_some_iff.mp hstep
    exact ⟨eventLog, hidle, hlog, hstate.symm⟩
  · exact absurd hstep (Option.some_ne_none _).symm

theorem evaluations_withEvaluation (evaluation : Option (Evaluation Payload)) :
    (state.withEvaluation client evaluation).evaluations client = evaluation :=
  Function.update_self ..

theorem evaluations_withEvaluation_of_ne {other : Client}
    (evaluation : Option (Evaluation Payload)) (hne : other ≠ client) :
    (state.withEvaluation client evaluation).evaluations other = state.evaluations other :=
  Function.update_of_ne hne ..

theorem forall_withEvaluation_of_ne {property : Client → Evaluation Payload → Prop}
    {evaluation : Option (Evaluation Payload)}
    (hothers : ∀ other, other ≠ client → ∀ found, state.evaluations other = some found →
      property other found)
    (hnew : ∀ found, evaluation = some found → property client found) :
    ∀ other found, (state.withEvaluation client evaluation).evaluations other = some found →
      property other found := by
  apply (Function.forall_update_iff state.evaluations fun other evaluation =>
    ∀ found, evaluation = some found → property other found).mpr
  exact ⟨hnew, hothers⟩

theorem forall_withEvaluation {property : Client → Evaluation Payload → Prop}
    {evaluation : Option (Evaluation Payload)}
    (hothers : ∀ other found, state.evaluations other = some found → property other found)
    (hnew : ∀ found, evaluation = some found → property client found) :
    ∀ other found, (state.withEvaluation client evaluation).evaluations other = some found →
      property other found :=
  forall_withEvaluation_of_ne (fun other _ => hothers other) hnew

end Forail.EventRules
