import Forail.Eda.Evaluation
import Mathlib.Data.Nat.Basic

/-!
# The throttle of an event rule

The throttle is checked on the copy of the rule that the evaluation has loaded, and the
firing is recorded after the actions.  Two evaluations that both load the rule before
either has recorded its firing both execute the actions.
-/

namespace Forail.EventRules

open Forail.Runs EventRule

variable {Payload : Type*} {env : Env Payload} {state state' : EdaState Payload}
  {event : Event Payload} {client : Client} {seconds : ℕ} {now : Time}

def Apart (seconds : ℕ) (firings : List Firing) : Prop :=
  firings.Pairwise fun first second =>
    first.time + seconds * microsecondsPerSecond ≤ second.time

instance (seconds : ℕ) : DecidablePred (Apart seconds) := fun firings =>
  inferInstanceAs (Decidable (firings.Pairwise _))

namespace EdaState

def Quiet (state : EdaState Payload) : Prop :=
  ∀ client evaluation, state.evaluations client = some evaluation →
    evaluation.stage.started = false

theorem quiet_of_withEvaluation {evaluation : Option (Evaluation Payload)}
    (hquiet : (state.withEvaluation client evaluation).Quiet)
    (hclient : ∀ found, state.evaluations client = some found → found.stage.started = false) :
    state.Quiet := by
  intro other found hfound
  by_cases hsame : other = client
  · subst hsame
    exact hclient found hfound
  · exact hquiet other found ((evaluations_withEvaluation_of_ne _ hsame).trans hfound)

theorem not_quiet_withEvaluation {evaluation : Evaluation Payload}
    (hstarted : evaluation.stage.started = true) :
    ¬ (state.withEvaluation client (some evaluation)).Quiet := by
  intro hquiet
  have hclient := hquiet client evaluation (evaluations_withEvaluation _)
  rw [hstarted] at hclient
  exact Bool.noConfusion hclient

end EdaState

/-- An evaluation starts the actions when its copy of the rule has the last firing and no
other evaluation is executing actions, and it is not interrupted before it records the
firing. -/
def FiresCurrent (state : EdaState Payload) : Event Payload → Prop
  | .fire client => state.Quiet ∧ ∀ evaluation rule, state.evaluations client = some evaluation →
      evaluation.stage = .matched rule →
        ∃ stored, state.rule = some stored ∧ stored.lastFiredAt = rule.lastFiredAt
  | .interrupt client => ∀ evaluation, state.evaluations client = some evaluation →
      evaluation.stage.started = false
  | _ => True

def CheckedCopy (seconds : ℕ) (now : Time) : Stage → Prop
  | .loaded rule => ∀ found, rule = some found → found.throttleSeconds = seconds
  | .matched rule => ∀ last, rule.lastFiredAt = some last →
      last + seconds * microsecondsPerSecond ≤ now
  | _ => True

theorem CheckedCopy.later {stage : Stage} {time : Time} (hchecked : CheckedCopy seconds now stage)
    (htime : now ≤ time) : CheckedCopy seconds time stage := by
  cases stage with
  | matched rule => exact fun last hlast => Nat.le_trans (hchecked last hlast) htime
  | _ => exact hchecked

theorem checkedCopy_of_started {stage : Stage} (hstarted : stage.started = true) :
    CheckedCopy seconds now stage := by
  cases stage with
  | executing _ _ _ => trivial
  | executed _ => trivial
  | _ => exact Bool.noConfusion hstarted

structure Throttled (seconds : ℕ) (state : EdaState Payload) : Prop where
  rule : ∀ stored, state.rule = some stored → stored.throttleSeconds = seconds
  copies : ∀ client evaluation, state.evaluations client = some evaluation →
    CheckedCopy seconds state.now evaluation.stage
  past : ∀ firing ∈ state.firings, firing.time ≤ state.now
  recorded : state.Quiet → ∀ stored, state.rule = some stored → ∀ firing ∈ state.firings,
    ∃ last, stored.lastFiredAt = some last ∧ firing.time ≤ last
  apart : Apart seconds state.firings

theorem throttled_initial (rule : EventRule) (now : Time) :
    Throttled rule.throttleSeconds (.initial rule now : EdaState Payload) where
  rule := fun _ hstored => Option.some.inj hstored ▸ rfl
  copies := fun _ _ hfound => absurd hfound.symm (Option.some_ne_none _)
  past := fun _ hmem => absurd hmem List.not_mem_nil
  recorded := fun _ _ _ _ hmem => absurd hmem List.not_mem_nil
  apart := List.Pairwise.nil

theorem Throttled.withEvaluation {evaluation : Option (Evaluation Payload)}
    (hkept : Throttled seconds state) (logs : List (EventLog Payload))
    (hnew : ∀ found, evaluation = some found → CheckedCopy seconds state.now found.stage)
    (hquiet : (state.withEvaluation client evaluation).Quiet → state.Quiet) :
    Throttled seconds { state.withEvaluation client evaluation with logs := logs } where
  rule := hkept.rule
  copies := forall_withEvaluation hkept.copies hnew
  past := hkept.past
  recorded := fun hafter => hkept.recorded (hquiet hafter)
  apart := hkept.apart

theorem throttled_clock {time : Time} (hkept : Throttled seconds state)
    (htime : state.now ≤ time) : Throttled seconds { state with now := time } where
  rule := hkept.rule
  copies := fun client evaluation hfound => (hkept.copies client evaluation hfound).later htime
  past := fun firing hmem => Nat.le_trans (hkept.past firing hmem) htime
  recorded := hkept.recorded
  apart := hkept.apart

theorem throttled_fire {evaluation : Evaluation Payload} {rule : EventRule} {stage : Stage}
    (hkept : Throttled seconds state) (hquiet : state.Quiet)
    (hfound : state.evaluations client = some evaluation)
    (hstage : evaluation.stage = .matched rule)
    (hcurrent : ∃ stored, state.rule = some stored ∧ stored.lastFiredAt = rule.lastFiredAt)
    (hstarted : stage.started = true) :
    Throttled seconds { state.withEvaluation client (some { evaluation with stage := stage }) with
      firings := state.firings ++ [⟨state.now, evaluation.eventLog.eventGuid⟩] } where
  rule := hkept.rule
  copies := forall_withEvaluation hkept.copies fun found hnew =>
    Option.some.inj hnew ▸ checkedCopy_of_started hstarted
  past := by
    intro firing hmem
    rcases List.mem_append.mp hmem with hbefore | hnew
    · exact hkept.past firing hbefore
    · obtain rfl := List.mem_singleton.mp hnew
      exact Nat.le_refl state.now
  recorded := fun hafter => absurd hafter (EdaState.not_quiet_withEvaluation hstarted)
  apart := by
    apply List.pairwise_append.mpr
    refine ⟨hkept.apart, List.pairwise_singleton _ _, ?_⟩
    intro firing hbefore last hlast
    obtain rfl := List.mem_singleton.mp hlast
    obtain ⟨stored, hstored, hsame⟩ := hcurrent
    obtain ⟨recorded, hrecorded, hle⟩ := hkept.recorded hquiet stored hstored firing hbefore
    have hchecked := hkept.copies client evaluation hfound
    rw [hstage] at hchecked
    calc firing.time + seconds * microsecondsPerSecond
      _ ≤ recorded + seconds * microsecondsPerSecond := Nat.add_le_add_right hle _
      _ ≤ state.now := hchecked recorded (hsame.symm.trans hrecorded)

theorem throttled_recordFiring (hkept : Throttled seconds state) :
    Throttled seconds { state.withEvaluation client none with
      rule := state.rule.map fun stored => stored.recordFiring state.now } where
  rule := by
    intro stored hstored
    obtain ⟨before, hbefore, rfl⟩ := Option.map_eq_some_iff.mp hstored
    exact hkept.rule before hbefore
  copies := forall_withEvaluation hkept.copies fun _ hnone =>
    absurd hnone.symm (Option.some_ne_none _)
  past := hkept.past
  recorded := by
    intro _ stored hstored firing hmem
    obtain ⟨before, -, rfl⟩ := Option.map_eq_some_iff.mp hstored
    exact ⟨state.now, rfl, hkept.past firing hmem⟩
  apart := hkept.apart

theorem throttled_step (hpos : 0 < seconds) (hkept : Throttled seconds state)
    (hallowed : FiresCurrent state event) (hstep : step env state event = some state') :
    Throttled seconds state' := by
  cases event with
  | clock time =>
    obtain ⟨htime, hstep⟩ := Option.ite_none_right_eq_some.mp hstep
    obtain rfl := Option.some.inj hstep
    exact throttled_clock hkept htime
  | deliver client request =>
    obtain rfl := Option.some.inj hstep
    exact ⟨hkept.rule, hkept.copies, hkept.past, hkept.recorded, hkept.apart⟩
  | create client =>
    obtain ⟨eventLog, -, rfl⟩ := Option.map_eq_some_iff.mp hstep
    exact ⟨hkept.rule, hkept.copies, hkept.past, hkept.recorded, hkept.apart⟩
  | load client logId =>
    obtain ⟨eventLog, hidle, -, rfl⟩ := load_eq_some hstep
    apply hkept.withEvaluation state.logs
    · intro found hnew
      exact Option.some.inj hnew ▸ hkept.rule
    · intro hquiet
      exact EdaState.quiet_of_withEvaluation hquiet fun found hfound =>
        absurd (hidle.symm.trans hfound) (Option.some_ne_none found).symm
  | check client =>
    obtain ⟨evaluation, rule, hfound, hstage, hstate⟩ := check_eq_some hstep
    have hquiet : ∀ next, (state.withEvaluation client next).Quiet → state.Quiet := by
      intro next hnext
      apply EdaState.quiet_of_withEvaluation hnext
      intro same hsame
      obtain rfl := Option.some.inj (hfound.symm.trans hsame)
      rw [hstage]
      rfl
    rcases hstate with rfl | ⟨found, results, rfl, hfree, rfl⟩
    · refine hkept.withEvaluation _ (fun _ hnone => ?_) (hquiet none)
      exact absurd hnone.symm (Option.some_ne_none _)
    · refine hkept.withEvaluation _ (fun next hnext => ?_) (hquiet _)
      have hchecked := hkept.copies client evaluation hfound
      rw [hstage] at hchecked
      have hseconds : found.throttleSeconds = seconds := hchecked found rfl
      obtain rfl := Option.some.inj hnext
      intro last hlast
      rw [← hseconds] at hpos ⊢
      exact le_of_not_throttled hfree hpos hlast
  | fire client =>
    obtain ⟨evaluation, rule, hfound, hstage, rfl⟩ := fire_eq_some hstep
    exact throttled_fire hkept hallowed.1 hfound hstage
      (hallowed.2 evaluation rule hfound hstage) rfl
  | execute client outcome =>
    obtain ⟨evaluation, stage, -, -, hstarted, rfl⟩ := execute_eq_some hstep
    refine hkept.withEvaluation state.logs (fun found hnew => ?_) fun hquiet =>
      absurd hquiet (EdaState.not_quiet_withEvaluation hstarted)
    exact Option.some.inj hnew ▸ checkedCopy_of_started hstarted
  | saveActions client =>
    obtain ⟨evaluation, rule, triggered, -, -, rfl⟩ := saveActions_eq_some hstep
    refine hkept.withEvaluation _ (fun found hnew => ?_) fun hquiet =>
      absurd hquiet (EdaState.not_quiet_withEvaluation rfl)
    exact Option.some.inj hnew ▸ trivial
  | recordFiring client =>
    obtain ⟨evaluation, -, -, rfl⟩ := recordFiring_eq_some hstep
    exact throttled_recordFiring hkept
  | interrupt client =>
    obtain ⟨evaluation, hfound, rfl⟩ := Option.map_eq_some_iff.mp hstep
    refine hkept.withEvaluation state.logs (fun _ hnone => ?_) fun hquiet => ?_
    · exact absurd hnone.symm (Option.some_ne_none _)
    · exact EdaState.quiet_of_withEvaluation hquiet hallowed
  | deleteRule =>
    obtain rfl := Option.some.inj hstep
    have hnone : ∀ stored : EventRule, (none : Option EventRule) ≠ some stored := fun stored =>
      (Option.some_ne_none stored).symm
    exact ⟨fun stored hrule => absurd hrule (hnone stored), hkept.copies, hkept.past,
      fun _ stored hrule => absurd hrule (hnone stored), hkept.apart⟩

/-- The throttle holds in every run in which no evaluation starts its actions on an
outdated copy of the rule. -/
theorem throttle_kept {rule : EventRule} (hpos : 0 < rule.throttleSeconds)
    (hrun : Run (step env) FiresCurrent (.initial rule now) state) :
    Apart rule.throttleSeconds state.firings := by
  have hkept : Throttled rule.throttleSeconds state :=
    hrun.invariant (Throttled rule.throttleSeconds) (throttled_initial rule now)
      fun _ _ _ hkept hallowed hstep => throttled_step hpos hkept hallowed hstep
  exact hkept.apart

/-! ## Two evaluations at the same time -/

def minuteRule : EventRule where
  enabled := true
  sourceType := .webhookGeneric
  conditions := []
  actions := [⟨.sendNotification, 1, ""⟩]
  throttleSeconds := 60
  lastFiredAt := none
  fireCount := 0

def plainEnv : Env Unit where
  render := fun _ _ => .ok "__TRUE__"
  sha1Hexdigest := fun _ => ""

def eventRequest (eventId : String) : Request Unit where
  signed := true
  githubDelivery := ""
  requestId := ""
  eventId := eventId
  body := []
  payload := ()

def twoReceived : List (Event Unit) :=
  [.deliver 0 (eventRequest "a"), .create 0, .deliver 0 (eventRequest "b"), .create 0]

theorem firesCurrent_alone {evaluation : Evaluation Payload} {rule stored : EventRule}
    (hfound : state.evaluations client = some evaluation)
    (hstage : evaluation.stage = .matched rule) (hrule : state.rule = some stored)
    (hcurrent : stored.lastFiredAt = rule.lastFiredAt)
    (hothers : ∀ other, other ≠ client → state.evaluations other = none) :
    FiresCurrent state (.fire client) := by
  constructor
  · intro other found hother
    by_cases hsame : other = client
    · subst hsame
      obtain rfl := Option.some.inj (hfound.symm.trans hother)
      rw [hstage]
      rfl
    · exact absurd ((hothers other hsame).symm.trans hother) (Option.some_ne_none found).symm
  · intro found copy hclient hcopy
    obtain rfl := Option.some.inj (hfound.symm.trans hclient)
    obtain rfl := Stage.matched.inj (hstage.symm.trans hcopy)
    exact ⟨stored, hrule, hcurrent⟩

theorem throttle_kept_minute :
    ∃ state : EdaState Unit, Run (step plainEnv) FiresCurrent (.initial minuteRule 0) state ∧
      state.firings.map Firing.time = [0, 60000000] ∧ Apart 60 state.firings := by
  have hloaded : Run (step plainEnv) FiresCurrent (.initial minuteRule 0) _ :=
    run_of_allowed (twoReceived ++ [.load 0 0, .check 0])
      (by simp [twoReceived, FiresCurrent]) rfl
  have hfired := Run.next (.fire 0) hloaded
    (firesCurrent_alone rfl rfl rfl rfl fun other hother => by
      cases other with
      | zero => exact absurd rfl hother
      | succ other => rfl) rfl
  have hlater := hfired.trans (run_of_allowed
    [.execute 0 (.ok 1), .saveActions 0, .recordFiring 0, .clock 60000000, .load 0 1, .check 0]
    (by simp [FiresCurrent]) rfl)
  have hrun := Run.next (.fire 0) hlater
    (firesCurrent_alone rfl rfl rfl rfl fun other hother => by
      cases other with
      | zero => exact absurd rfl hother
      | succ other => rfl) rfl
  have hapart := throttle_kept (by decide) hrun
  exact ⟨_, hrun, rfl, hapart⟩

theorem throttle_raced :
    ¬ ∀ (rule : EventRule) (now : Time) (state : EdaState Unit), 0 < rule.throttleSeconds →
      Run (step plainEnv) (fun _ _ => True) (.initial rule now) state →
        Apart rule.throttleSeconds state.firings := by
  intro hclaim
  have hevents : ((twoReceived ++ [.load 0 0, .load 1 1, .check 0, .check 1, .fire 0, .fire 1] :
      List (Event Unit)).foldlM (step plainEnv) (.initial minuteRule 0)).any (fun state =>
        !decide (Apart 60 state.firings)) = true := by decide
  obtain ⟨state, hrun, hclose⟩ := exists_run_of_any _ hevents
  have hapart : Apart 60 state.firings := hclaim minuteRule 0 state (by decide) hrun
  rw [decide_eq_true hapart] at hclose
  exact Bool.noConfusion hclose

end Forail.EventRules
