import Forail.Eda.Evaluation
import Mathlib.Data.List.Basic

/-!
# Each event once

A repeated delivery is only recognized when an earlier row of the GUID is matched or has
fired, and an evaluation does not look at the status of the row it loads.  So the actions
of one event may be executed several times.
-/

namespace Forail.EventRules

open Forail.Runs

variable {Payload : Type*} {env : Env Payload} {state state' : EdaState Payload}
  {event : Event Payload} {client : Client} {now : Time} {rule : EventRule}

/-- The actions are executed at most once for each event GUID; events without a GUID
have the empty one. -/
def OncePerEvent (firings : List Firing) : Prop :=
  ∀ guid, guid ≠ "" → firings.countP (fun firing => firing.eventGuid = guid) ≤ 1

/-- An evaluation of an event with a GUID begins only if the actions of no row of that
GUID have been started, and no row of it is being evaluated. -/
def LoadsFresh (state : EdaState Payload) : Event Payload → Prop
  | .load _ logId => ∀ eventLog, state.logs[logId]? = some eventLog → eventLog.eventGuid ≠ "" →
      (∀ other ∈ state.logs, other.eventGuid = eventLog.eventGuid → ¬ other.status.Acted) ∧
        ∀ client evaluation, state.evaluations client = some evaluation →
          evaluation.eventLog.eventGuid ≠ eventLog.eventGuid
  | _ => True

structure FiredOnce (guid : String) (state : EdaState Payload) : Prop where
  rows : ∀ client evaluation, state.evaluations client = some evaluation →
    ∃ row, state.logs[evaluation.logId]? = some row ∧
      row.eventGuid = evaluation.eventLog.eventGuid
  acted : ∀ client evaluation, state.evaluations client = some evaluation →
    evaluation.eventLog.eventGuid = guid → (∀ rule, evaluation.stage ≠ .loaded rule) →
      ∀ row, state.logs[evaluation.logId]? = some row → row.status.Acted
  alone : ∀ client evaluation, state.evaluations client = some evaluation →
    evaluation.eventLog.eventGuid = guid → ∀ other found, state.evaluations other = some found →
      found.eventLog.eventGuid = guid → other = client
  unfired : ∀ client evaluation, state.evaluations client = some evaluation →
    evaluation.eventLog.eventGuid = guid → evaluation.stage.started = false →
      ∀ firing ∈ state.firings, firing.eventGuid ≠ guid
  fired : ∀ firing ∈ state.firings, firing.eventGuid = guid →
    ∃ (logId : LogId) (row : EventLog Payload), state.logs[logId]? = some row ∧
      row.eventGuid = guid ∧ row.status.Acted
  once : state.firings.countP (fun firing => firing.eventGuid = guid) ≤ 1

theorem Stage.ne_loaded_of_started {stage : Stage} (hstarted : stage.started = true) :
    ∀ copy, stage ≠ .loaded copy := by
  rintro copy rfl
  exact Bool.noConfusion hstarted

variable {guid : String}

theorem firedOnce_initial (rule : EventRule) (now : Time) :
    FiredOnce guid (.initial rule now : EdaState Payload) where
  rows := fun _ _ hfound => absurd hfound.symm (Option.some_ne_none _)
  acted := fun _ _ hfound => absurd hfound.symm (Option.some_ne_none _)
  alone := fun _ _ hfound => absurd hfound.symm (Option.some_ne_none _)
  unfired := fun _ _ hfound => absurd hfound.symm (Option.some_ne_none _)
  fired := fun _ hmem => absurd hmem List.not_mem_nil
  once := Nat.zero_le 1

theorem exists_row_modify {logs : List (EventLog Payload)} {logId : LogId} {found : String}
    (saved : LogId) {save : EventLog Payload → EventLog Payload}
    (hsame : ∀ stored, (save stored).eventGuid = stored.eventGuid)
    (hrow : ∃ row, logs[logId]? = some row ∧ row.eventGuid = found) :
    ∃ row, (logs.modify saved save)[logId]? = some row ∧ row.eventGuid = found := by
  obtain ⟨row, hrow, hguid⟩ := hrow
  rw [List.getElem?_modify, hrow]
  by_cases hsaved : saved = logId
  · exact ⟨save row, by simp [hsaved], (hsame row).trans hguid⟩
  · exact ⟨row, by simp [hsaved], hguid⟩

theorem FiredOnce.logId_ne (hkept : FiredOnce guid state) {evaluation found : Evaluation Payload}
    {other : Client} (hfound : state.evaluations client = some evaluation)
    (hother : state.evaluations other = some found) (hguid : found.eventLog.eventGuid = guid)
    (hne : other ≠ client) : evaluation.logId ≠ found.logId := by
  intro hsame
  obtain ⟨row, hrow, hrowGuid⟩ := hkept.rows client evaluation hfound
  obtain ⟨row', hrow', hrowGuid'⟩ := hkept.rows other found hother
  have hrows : row = row' := Option.some.inj (hrow.symm.trans (hsame ▸ hrow'))
  have hclient : evaluation.eventLog.eventGuid = guid := by
    rw [← hrowGuid, hrows, hrowGuid', hguid]
  exact hne (hkept.alone client evaluation hfound hclient other found hother hguid)

theorem FiredOnce.alone_withEvaluation (hkept : FiredOnce guid state)
    {evaluation : Evaluation Payload} {next : Option (Evaluation Payload)}
    (hfound : state.evaluations client = some evaluation)
    (hnext : ∀ found, next = some found → found.eventLog = evaluation.eventLog) :
    ∀ first firstFound, (state.withEvaluation client next).evaluations first = some firstFound →
      firstFound.eventLog.eventGuid = guid → ∀ second secondFound,
        (state.withEvaluation client next).evaluations second = some secondFound →
          secondFound.eventLog.eventGuid = guid → second = first := by
  have hbefore : ∀ other found,
      (state.withEvaluation client next).evaluations other = some found →
        found.eventLog.eventGuid = guid → ∃ before, state.evaluations other = some before ∧
          before.eventLog.eventGuid = guid := by
    apply forall_withEvaluation
    · exact fun other found hother hguid => ⟨found, hother, hguid⟩
    · exact fun found hnew hguid => ⟨evaluation, hfound, hnext found hnew ▸ hguid⟩
  intro first firstFound hfirst hfirstGuid second secondFound hsecond hsecondGuid
  obtain ⟨before, hbeforeFirst, hguidFirst⟩ := hbefore first firstFound hfirst hfirstGuid
  obtain ⟨before', hbeforeSecond, hguidSecond⟩ := hbefore second secondFound hsecond hsecondGuid
  exact hkept.alone first before hbeforeFirst hguidFirst second before' hbeforeSecond hguidSecond

theorem FiredOnce.advance {evaluation : Evaluation Payload} {next : Option (Evaluation Payload)}
    {save : EventLog Payload → EventLog Payload} (hkept : FiredOnce guid state)
    (hfound : state.evaluations client = some evaluation) (rule : Option EventRule)
    (hsame : ∀ stored, (save stored).eventGuid = stored.eventGuid)
    (hacted : evaluation.stage.started = true → ∀ stored, stored.status.Acted →
      (save stored).status.Acted)
    (hnext : ∀ found, next = some found → ∃ stage, found = { evaluation with stage := stage } ∧
      (stage.started = false → evaluation.stage.started = false) ∧
        ((∀ rule, stage ≠ .loaded rule) → ∀ stored, (state.logs[evaluation.logId]? = some stored →
          evaluation.eventLog.eventGuid = guid → (save stored).status.Acted))) :
    FiredOnce guid { state.withEvaluation client next with
      rule := rule, logs := state.logs.modify evaluation.logId save } where
  rows := by
    apply forall_withEvaluation
    · exact fun other found hother => exists_row_modify _ hsame (hkept.rows other found hother)
    · intro found hnew
      obtain ⟨stage, rfl, -, -⟩ := hnext found hnew
      exact exists_row_modify _ hsame (hkept.rows client evaluation hfound)
  acted := by
    intro other found hother
    by_cases hclient : other = client
    · subst hclient
      obtain ⟨stage, rfl, -, hsave⟩ :=
        hnext found ((evaluations_withEvaluation next).symm.trans hother)
      intro hguid hstage row hrow
      rw [List.getElem?_modify_eq] at hrow
      obtain ⟨stored, hstored, rfl⟩ := Option.map_eq_some_iff.mp hrow
      exact hsave hstage stored hstored hguid
    · intro hguid hstage row hrow
      have hbefore := (evaluations_withEvaluation_of_ne next hclient).symm.trans hother
      rw [List.getElem?_modify_ne _ _ (hkept.logId_ne hfound hbefore hguid hclient)] at hrow
      exact hkept.acted other found hbefore hguid hstage row hrow
  alone := by
    apply hkept.alone_withEvaluation hfound
    intro found hnew
    obtain ⟨stage, rfl, -, -⟩ := hnext found hnew
    rfl
  unfired := by
    apply forall_withEvaluation hkept.unfired
    intro found hnew
    obtain ⟨stage, rfl, hstarted, -⟩ := hnext found hnew
    exact fun hguid hstage => hkept.unfired client evaluation hfound hguid (hstarted hstage)
  fired := by
    intro firing hmem hguid
    obtain ⟨logId, row, hrow, hrowGuid, hrowActed⟩ := hkept.fired firing hmem hguid
    by_cases hsaved : evaluation.logId = logId
    · subst hsaved
      obtain ⟨row', hrow', hrowGuid'⟩ := hkept.rows client evaluation hfound
      obtain rfl := Option.some.inj (hrow.symm.trans hrow')
      have hstarted : evaluation.stage.started = true := by
        apply eq_true_of_ne_false
        intro hearly
        exact hkept.unfired client evaluation hfound (hrowGuid'.symm.trans hrowGuid) hearly
          firing hmem hguid
      refine ⟨evaluation.logId, save row, ?_, (hsame row).trans hrowGuid,
        hacted hstarted row hrowActed⟩
      rw [List.getElem?_modify_eq, hrow]
      rfl
    · exact ⟨logId, row, (List.getElem?_modify_ne _ _ hsaved).trans hrow, hrowGuid, hrowActed⟩
  once := hkept.once

theorem FiredOnce.proceed {evaluation : Evaluation Payload} {next : Option (Evaluation Payload)}
    (hkept : FiredOnce guid state) (hfound : state.evaluations client = some evaluation)
    (rule : Option EventRule)
    (hnext : ∀ found, next = some found → ∃ stage, found = { evaluation with stage := stage } ∧
      (stage.started = false → evaluation.stage.started = false) ∧
        ∀ copy, evaluation.stage ≠ .loaded copy) :
    FiredOnce guid { state.withEvaluation client next with rule := rule } := by
  have hadvanced : FiredOnce guid { state.withEvaluation client next with
      rule := rule, logs := state.logs.modify evaluation.logId id } := by
    apply hkept.advance hfound rule (fun _ => rfl) (fun _ _ hacted => hacted)
    intro found hnew
    obtain ⟨stage, hstage, hstarted, hpast⟩ := hnext found hnew
    exact ⟨stage, hstage, hstarted, fun _ stored hstored hguid =>
      hkept.acted client evaluation hfound hguid hpast stored hstored⟩
  rwa [List.modify_id] at hadvanced

theorem getElem?_append_of_eq_some {logs : List (EventLog Payload)} {logId : LogId}
    {row : EventLog Payload} (more : List (EventLog Payload)) (hrow : logs[logId]? = some row) :
    (logs ++ more)[logId]? = some row := by
  obtain ⟨hlt, -⟩ := List.getElem?_eq_some_iff.mp hrow
  rw [List.getElem?_append_left hlt, hrow]

theorem FiredOnce.create (hkept : FiredOnce guid state) (eventLog : EventLog Payload)
    (client : Client) : FiredOnce guid (state.create client eventLog) where
  rows := by
    intro other found hother
    obtain ⟨row, hrow, hguid⟩ := hkept.rows other found hother
    exact ⟨row, getElem?_append_of_eq_some [eventLog] hrow, hguid⟩
  acted := by
    intro other found hother hguid hstage row hrow
    obtain ⟨row', hrow', -⟩ := hkept.rows other found hother
    obtain rfl : row' = row :=
      Option.some.inj ((getElem?_append_of_eq_some [eventLog] hrow').symm.trans hrow)
    exact hkept.acted other found hother hguid hstage row' hrow'
  alone := hkept.alone
  unfired := hkept.unfired
  fired := by
    intro firing hmem hguid
    obtain ⟨logId, row, hrow, hacted⟩ := hkept.fired firing hmem hguid
    exact ⟨logId, row, getElem?_append_of_eq_some [eventLog] hrow, hacted⟩
  once := hkept.once

theorem FiredOnce.load (hkept : FiredOnce guid state) (hset : guid ≠ "") {logId : LogId}
    {eventLog : EventLog Payload} (hrow : state.logs[logId]? = some eventLog)
    (hfresh : LoadsFresh state (.load client logId)) :
    FiredOnce guid (state.load client logId eventLog) where
  rows := by
    apply forall_withEvaluation hkept.rows
    intro found hnew
    obtain rfl := Option.some.inj hnew
    exact ⟨eventLog, hrow, rfl⟩
  acted := by
    apply forall_withEvaluation hkept.acted
    intro found hnew _ hstage
    obtain rfl := Option.some.inj hnew
    exact absurd rfl (hstage state.rule)
  alone := by
    apply forall_withEvaluation
    · intro other found hother hguid
      apply forall_withEvaluation (hkept.alone other found hother hguid)
      intro new hnew hnewGuid
      obtain rfl := Option.some.inj hnew
      have hapart := (hfresh eventLog hrow fun hnone => hset (hnewGuid ▸ hnone)).2 other found hother
      exact absurd (hguid.trans hnewGuid.symm) hapart
    · intro new hnew hnewGuid
      obtain rfl := Option.some.inj hnew
      apply forall_withEvaluation
      · intro other found hother hguid
        have hapart :=
          (hfresh eventLog hrow fun hnone => hset (hnewGuid ▸ hnone)).2 other found hother
        exact absurd (hguid.trans hnewGuid.symm) hapart
      · exact fun _ _ _ => rfl
  unfired := by
    apply forall_withEvaluation hkept.unfired
    intro found hnew hguid _ firing hmem hfiring
    obtain rfl := Option.some.inj hnew
    obtain ⟨other, row, hother, hrowGuid, hacted⟩ := hkept.fired firing hmem hfiring
    have hidle := (hfresh eventLog hrow fun hnone => hset (hguid ▸ hnone)).1 row
      (List.mem_of_getElem? hother) (hrowGuid.trans hguid.symm)
    exact hidle hacted
  fired := hkept.fired
  once := hkept.once

theorem FiredOnce.fire (hkept : FiredOnce guid state) {evaluation : Evaluation Payload}
    {stage : Stage} {time : Time} (hfound : state.evaluations client = some evaluation)
    (hearly : evaluation.stage.started = false) (hpast : ∀ copy, evaluation.stage ≠ .loaded copy)
    (hstarted : stage.started = true) :
    FiredOnce guid { state.withEvaluation client (some { evaluation with stage := stage }) with
      firings := state.firings ++ [⟨time, evaluation.eventLog.eventGuid⟩] } where
  rows := forall_withEvaluation hkept.rows fun found hnew =>
    Option.some.inj hnew ▸ hkept.rows client evaluation hfound
  acted := by
    apply forall_withEvaluation hkept.acted
    intro found hnew hguid _
    obtain rfl := Option.some.inj hnew
    exact hkept.acted client evaluation hfound hguid hpast
  alone := hkept.alone_withEvaluation hfound fun _ hnew => Option.some.inj hnew ▸ rfl
  unfired := by
    apply forall_withEvaluation_of_ne
    · intro other hne found hother hguid hwaiting firing hmem hfired
      rcases List.mem_append.mp hmem with hbefore | hnew
      · exact hkept.unfired other found hother hguid hwaiting firing hbefore hfired
      · obtain rfl := List.mem_singleton.mp hnew
        exact hne (hkept.alone client evaluation hfound hfired other found hother hguid)
    · intro found hnew _ hwaiting
      obtain rfl := Option.some.inj hnew
      exact absurd (hwaiting.symm.trans hstarted) Bool.false_ne_true
  fired := by
    intro firing hmem hguid
    rcases List.mem_append.mp hmem with hbefore | hnew
    · exact hkept.fired firing hbefore hguid
    · obtain rfl := List.mem_singleton.mp hnew
      obtain ⟨row, hrow, hrowGuid⟩ := hkept.rows client evaluation hfound
      refine ⟨evaluation.logId, row, hrow, hrowGuid.trans hguid, ?_⟩
      exact hkept.acted client evaluation hfound hguid hpast row hrow
  once := by
    rw [List.countP_append]
    by_cases hguid : evaluation.eventLog.eventGuid = guid
    · have hnone : state.firings.countP (fun firing => firing.eventGuid = guid) = 0 := by
        apply List.countP_eq_zero.mpr
        intro firing hmem hfiring
        exact hkept.unfired client evaluation hfound hguid hearly firing hmem
          (of_decide_eq_true hfiring)
      rw [hnone, Nat.zero_add]
      exact List.countP_le_length
    · simpa [hguid] using hkept.once

theorem firedOnce_step (hset : guid ≠ "") (hkept : FiredOnce guid state)
    (hallowed : LoadsFresh state event) (hstep : step env state event = some state') :
    FiredOnce guid state' := by
  cases event with
  | clock time =>
    obtain ⟨-, hstep⟩ := Option.ite_none_right_eq_some.mp hstep
    obtain rfl := Option.some.inj hstep
    exact ⟨hkept.rows, hkept.acted, hkept.alone, hkept.unfired, hkept.fired, hkept.once⟩
  | deliver client request =>
    obtain rfl := Option.some.inj hstep
    exact ⟨hkept.rows, hkept.acted, hkept.alone, hkept.unfired, hkept.fired, hkept.once⟩
  | create client =>
    obtain ⟨eventLog, -, rfl⟩ := Option.map_eq_some_iff.mp hstep
    exact hkept.create eventLog client
  | load client logId =>
    obtain ⟨eventLog, -, hrow, rfl⟩ := load_eq_some hstep
    exact hkept.load hset hrow hallowed
  | check client =>
    obtain ⟨evaluation, rule, hfound, hstage, hstate⟩ := check_eq_some hstep
    have hearly : evaluation.stage.started = false := by rw [hstage]; rfl
    rcases hstate with rfl | ⟨found, results, rfl, -, rfl⟩
    · apply hkept.advance hfound state.rule (fun stored => Verdict.eventGuid_save stored _)
      · exact fun hstarted => absurd (hearly.symm.trans hstarted) Bool.false_ne_true
      · exact fun _ hnone => absurd hnone.symm (Option.some_ne_none _)
    · apply hkept.advance hfound state.rule (fun stored => Verdict.eventGuid_save stored _)
      · exact fun hstarted => absurd (hearly.symm.trans hstarted) Bool.false_ne_true
      · intro next hnext
        obtain rfl := Option.some.inj hnext
        exact ⟨.matched found, rfl, fun _ => hearly,
          fun _ stored _ _ => Verdict.acted_save_matched stored results⟩
  | fire client =>
    obtain ⟨evaluation, rule, hfound, hstage, rfl⟩ := fire_eq_some hstep
    apply hkept.fire hfound _ _ rfl
    · rw [hstage]
      rfl
    · rw [hstage]
      exact fun _ => Stage.noConfusion
  | execute client outcome =>
    obtain ⟨evaluation, stage, hfound, hrunning, hstarted, rfl⟩ := execute_eq_some hstep
    apply hkept.proceed hfound state.rule
    intro next hnext
    obtain rfl := Option.some.inj hnext
    exact ⟨stage, rfl, fun hearly => absurd (hearly.symm.trans hstarted) Bool.false_ne_true,
      Stage.ne_loaded_of_started hrunning⟩
  | saveActions client =>
    obtain ⟨evaluation, rule, triggered, hfound, hstarted, rfl⟩ := saveActions_eq_some hstep
    have hsame : ∀ stored : EventLog Payload,
        (stored.saveActions evaluation.eventLog triggered).eventGuid = stored.eventGuid :=
      fun _ => rfl
    apply hkept.advance hfound state.rule hsame
    · exact fun _ stored _ => EventLog.acted_saveActions stored _ _
    · intro next hnext
      obtain rfl := Option.some.inj hnext
      exact ⟨.executed rule, rfl, Bool.noConfusion,
        fun _ stored _ _ => EventLog.acted_saveActions stored _ _⟩
  | recordFiring client =>
    obtain ⟨evaluation, hfound, -, rfl⟩ := recordFiring_eq_some hstep
    exact hkept.proceed hfound _ fun _ hnone => absurd hnone.symm (Option.some_ne_none _)
  | interrupt client =>
    obtain ⟨evaluation, hfound, rfl⟩ := Option.map_eq_some_iff.mp hstep
    exact hkept.proceed hfound state.rule fun _ hnone => absurd hnone.symm (Option.some_ne_none _)
  | deleteRule =>
    obtain rfl := Option.some.inj hstep
    exact ⟨hkept.rows, hkept.acted, hkept.alone, hkept.unfired, hkept.fired, hkept.once⟩

/-- The actions are executed once for each event in every run in which no evaluation
begins for an event that has been acted on, or is being evaluated. -/
theorem once_per_event (hrun : Run (step env) LoadsFresh (.initial rule now) state) :
    OncePerEvent state.firings := by
  intro guid hset
  have hkept : FiredOnce guid state :=
    hrun.invariant (FiredOnce guid) (firedOnce_initial rule now)
      fun _ _ _ hkept hallowed hstep => firedOnce_step hset hkept hallowed hstep
  exact hkept.once

/-! ## An event that is delivered again -/

def openRule : EventRule where
  enabled := true
  sourceType := .webhookGithub
  conditions := []
  actions := [⟨.launchJobTemplate, 1, ""⟩]
  throttleSeconds := 0
  lastFiredAt := none
  fireCount := 0

def githubEnv : Env Unit where
  render := fun _ _ => .ok "__TRUE__"
  sha1Hexdigest := fun _ => ""

def pushRequest : Request Unit where
  signed := true
  githubDelivery := "72d3162e"
  requestId := ""
  eventId := ""
  body := []
  payload := ()

theorem once_per_event_redelivered :
    ∃ state : EdaState Unit, Run (step githubEnv) LoadsFresh (.initial openRule 0) state ∧
      state.firings.map Firing.eventGuid = ["72d3162e"] ∧ (state.deliveries 0).isNone ∧
        OncePerEvent state.firings := by
  have hcreated : Run (step githubEnv) LoadsFresh (.initial openRule 0) _ :=
    run_of_allowed [.deliver 0 pushRequest, .create 0] (by simp [LoadsFresh]) rfl
  have hloaded := Run.next (.load 0 0) hcreated (by
    intro eventLog _ _
    constructor
    · intro other hother _
      obtain rfl := List.mem_singleton.mp hother
      decide
    · exact fun _ _ hfound => absurd hfound.symm (Option.some_ne_none _)) rfl
  have hrun := hloaded.trans (run_of_allowed
    [.check 0, .fire 0, .execute 0 (.ok 1), .saveActions 0, .recordFiring 0,
      .deliver 0 pushRequest] (by simp [LoadsFresh]) rfl)
  have honce := once_per_event hrun
  exact ⟨_, hrun, rfl, rfl, honce⟩

theorem event_acted_twice :
    ¬ ∀ (rule : EventRule) (now : Time) (state : EdaState Unit),
      Run (step githubEnv) (fun _ _ => True) (.initial rule now) state →
        OncePerEvent state.firings := by
  intro hclaim
  have hevents : (([.deliver 0 pushRequest, .create 0, .deliver 0 pushRequest, .create 0,
      .load 0 0, .check 0, .fire 0, .load 1 1, .check 1, .fire 1] : List (Event Unit)).foldlM
        (step githubEnv) (.initial openRule 0)).any (fun state => decide
          (2 ≤ state.firings.countP fun firing => firing.eventGuid = "72d3162e")) = true := by
    decide
  obtain ⟨state, hrun, htwice⟩ := exists_run_of_any _ hevents
  have hmany := of_decide_eq_true htwice
  have honce := hclaim openRule 0 state hrun "72d3162e" (by decide)
  omega

end Forail.EventRules
