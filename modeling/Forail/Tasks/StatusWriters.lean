import Forail.Core.Copies
import Forail.Core.Runs
import Forail.Models.UnifiedJobs

/-!
# The writers of a job's status

The process that controls a job, the reaper, `cancel` and the task manager all
store the status of the job from objects they loaded before.  Only the last
update of the controlling process locks the row, and it does not look at the
status that it overwrites.
-/

namespace Forail.StatusWriters

open Forail.Copies Forail.Runs Forail.UnifiedJobs

abbrev Client := ℕ

structure Job where
  isWorkflowJob : Bool
  status : JobStatus
  cancelFlag : Bool
  celeryTaskId : String
  startArgs : String
  jobExplanation : String
  deriving DecidableEq, Repr

/-- The calls of `update_model` in `BaseTask.run` that store a status before the
playbook runs. -/
inductive Update where
  | cancelBeforeStart
  | start
  | cancelBeforePlaybook
  deriving DecidableEq, Repr

def Update.status : Update → JobStatus
  | cancelBeforeStart => .canceled
  | start => .running
  | cancelBeforePlaybook => .canceled

def Update.apply (update : Update) (job : Job) : Job :=
  { job with
    status := update.status
    startArgs := if update = cancelBeforePlaybook then job.startArgs else "" }

/-- Where `BaseTask.run` stands, with `self.instance`.  Inside `update_model` there
is also the instance that was loaded there. -/
inductive Process where
  | idle
  | loaded (job : Job)
  | updating (update : Update) (job : Job) (reloaded : Option Job)
  | preparing (job : Job)
  | running (job : Job)
  | stopping
  | finishing (status : JobStatus)
  | ended
  deriving DecidableEq, Repr

def Update.next (job : Job) : Update → Process
  | cancelBeforeStart => .ended
  | start => .preparing job
  | cancelBeforePlaybook => .stopping

/-- How the playbook ends; `error` also stands for an exception. -/
inductive Outcome where
  | successful
  | failed
  | error
  | timeout
  | canceled
  deriving DecidableEq, Repr

/-- The status that `run` stores; without the cancel flag a signal came from a
shutdown. -/
def Outcome.status (cancelFlag : Bool) : Outcome → JobStatus
  | successful => .successful
  | failed => .failed
  | error => .error
  | timeout => .failed
  | canceled => if cancelFlag then .canceled else .failed

structure JobState where
  stored : Stored Client Job
  processes : Client → Process
  reported : List JobStatus

namespace JobState

variable (state : JobState)

def start (job : Job) : JobState where
  stored := .fresh job
  processes := fun _ => .idle
  reported := []

def row : Job := state.stored.row

def setProcess (client : Client) (process : Process) : JobState :=
  { state with processes := Function.update state.processes client process }

def load (client : Client) : JobState :=
  { state with stored := state.stored.load client }

def save (client : Client) (job : Job) (reported : List JobStatus) : JobState :=
  { state with
    stored := state.stored.store client job none
    reported := state.reported ++ reported }

end JobState

inductive Event where
  | runGet (client : Client)
  | runCheck (client : Client)
  | runReload (client : Client)
  | runSave (client : Client)
  | runCancelCheck (client : Client) (signal : Bool)
  | runStop (client : Client)
  | runEnd (client : Client) (outcome : Outcome)
  /-- Receptor gave no result, and `run` returns. -/
  | runReturn (client : Client)
  | runFinish (client : Client)
  /-- `refresh_from_db` of `reap_job`. -/
  | reapRefresh (client : Client)
  | reapSave (client : Client)
  | cancelGet (client : Client)
  | cancelFlag (client : Client)
  | cancelStatus (client : Client) (confirmed : Bool)
  | getTasks (client : Client)
  | startTask (client : Client) (preStart : Bool) (uuid : String)
  | failTask (client : Client) (explanation : String)
  deriving DecidableEq

namespace Job

def reap (job : Job) (explanation : String) : Job :=
  { job with
    status := .failed
    startArgs := ""
    jobExplanation := (if explanation = "" then "" else explanation ++ " ") ++
      "Task was marked as running but was not present in the job queue, so it has been marked as failed." }

def started (job : Job) (preStart : Bool) (uuid : String) : Job :=
  if preStart then
    { job with
      status := if job.isWorkflowJob then .running else .waiting
      celeryTaskId := uuid }
  else
    { job with
      status := .failed
      jobExplanation :=
        (if job.jobExplanation = "" then "" else job.jobExplanation ++ " ") ++
          "Task failed pre-start check." }

end Job

open JobState

def step (state : JobState) : Event → Option JobState
  | .runGet client =>
      match state.processes client with
      | .idle => some (state.setProcess client (.loaded state.row))
      | _ => none
  | .runCheck client =>
      match state.processes client with
      | .loaded job =>
          if job.status ≠ .canceled ∧ job.cancelFlag then
            some (state.setProcess client (.updating .cancelBeforeStart job none))
          else if job.status.Active then
            some (state.setProcess client (.updating .start job none))
          else some (state.setProcess client .ended)
      | _ => none
  | .runReload client =>
      match state.processes client with
      | .updating update job none =>
          some (state.setProcess client (.updating update job (some state.row)))
      | _ => none
  | .runSave client =>
      match state.processes client with
      | .updating update _ (some reloaded) =>
          some { state.setProcess client (update.next (update.apply reloaded)) with
            stored := { state.stored with row := update.apply state.row }
            reported := state.reported ++ if update = .start then [.running] else [] }
      | _ => none
  | .runCancelCheck client signal =>
      match state.processes client with
      | .preparing job =>
          if job.cancelFlag || signal then
            some (state.setProcess client (.updating .cancelBeforePlaybook job none))
          else some (state.setProcess client (.running job))
      | _ => none
  | .runStop client =>
      match state.processes client with
      | .stopping => some (state.setProcess client (.finishing state.row.status))
      | _ => none
  | .runEnd client outcome =>
      match state.processes client with
      | .running _ =>
          some (state.setProcess client (.finishing (outcome.status state.row.cancelFlag)))
      | .preparing _ =>
          if outcome = .error then some (state.setProcess client (.finishing .error)) else none
      | _ => none
  | .runReturn client =>
      match state.processes client with
      | .running _ => some (state.setProcess client .ended)
      | _ => none
  | .runFinish client =>
      match state.processes client with
      | .finishing status =>
          some { state.setProcess client .ended with
            stored := { state.stored with row := { state.row with status := status } }
            reported := state.reported ++ [status] }
      | _ => none
  | .reapRefresh client | .cancelGet client => some (state.load client)
  | .reapSave client =>
      (state.stored.copies client).bind fun copy =>
        if copy.status ∈ [.running, .waiting] then
          some (state.save client (state.row.reap copy.jobExplanation) [.failed])
        else none
  | .cancelFlag client =>
      (state.stored.copies client).bind fun copy =>
        if copy.status.Active ∧ copy.cancelFlag = false then
          some { state with
            stored := state.stored.store client
              { state.row with cancelFlag := true, startArgs := "" }
              (some { copy with cancelFlag := true, startArgs := "" })
            reported := state.reported ++ [.canceled] }
        else none
  | .cancelStatus client confirmed =>
      (state.stored.copies client).bind fun copy =>
        if copy.status.Active ∧ copy.cancelFlag = true then
          if copy.celeryTaskId ≠ "" ∧ confirmed then some (state.save client state.row [])
          else some (state.save client { state.row with status := .canceled } [])
        else none
  | .getTasks client =>
      if state.row.status = .pending then some (state.load client) else none
  | .startTask client preStart uuid =>
      (state.stored.copies client).bind fun copy =>
        if copy.status = .pending then
          let task := copy.started preStart uuid
          some (state.save client task (if task.status = .waiting then [] else [task.status]))
        else none
  | .failTask client explanation =>
      (state.stored.copies client).bind fun copy =>
        if copy.status = .pending then
          some (state.save client
            { state.row with status := .failed, jobExplanation := explanation } [.failed])
        else none

/-! ## Current copies -/

def Final (job : Job) : Prop := ¬ job.status.Active

/-- Each status is stored on the strength of a copy that is still current: the
job has not ended since.  The controlling process does not begin by canceling a
job that has ended otherwise, and at its end the job has not ended, or with the
same status. -/
def WritesCurrent (state : JobState) : Event → Prop
  | .runCheck client =>
      match state.processes client with
      | .loaded job => job.cancelFlag = true → job.status = .canceled ∨ job.status.Active
      | _ => True
  | .runSave client =>
      match state.processes client with
      | .updating _ job _ => Final state.row → Final job
      | _ => True
  | .runFinish client =>
      match state.processes client with
      | .finishing status => Final state.row → state.row.status = status
      | _ => True
  | .reapSave client | .cancelStatus client _ | .startTask client _ _ | .failTask client _ =>
      state.stored.Current Final client
  | _ => True

def Process.Checked : Process → Prop
  | updating _ job _ => job.status.Active
  | preparing job => job.status.Active
  | _ => True

def AllChecked (state : JobState) : Prop := ∀ client, (state.processes client).Checked

variable {state state' later : JobState} {event : Event}

theorem checked_update {client : Client} {process : Process} (hall : AllChecked state)
    (hprocess : process.Checked) (other : Client) :
    (Function.update state.processes client process other).Checked := by
  revert other
  apply (Function.forall_update_iff state.processes fun _ process => process.Checked).mpr
  exact ⟨hprocess, fun other _ => hall other⟩

def Event.isMove : Event → Bool
  | runGet _ | runCheck _ | runReload _ | runCancelCheck _ _ | runStop _ | runEnd _ _
  | runReturn _ => true
  | _ => false

theorem exists_process_of_move (hall : AllChecked state) (hmove : event.isMove = true)
    (hcurrent : WritesCurrent state event) (hstep : step state event = some state') :
    ∃ client process, state' = state.setProcess client process ∧ process.Checked := by
  cases event with
  | runGet client =>
    simp only [step] at hstep
    split at hstep
    · exact ⟨client, _, (Option.some.inj hstep).symm, trivial⟩
    · contradiction
  | runCheck client =>
    simp only [step] at hstep
    split at hstep
    · next job hloaded =>
      simp only [WritesCurrent, hloaded] at hcurrent
      split at hstep
      · next hcancel =>
        exact ⟨client, _, (Option.some.inj hstep).symm,
          (hcurrent hcancel.2).resolve_left hcancel.1⟩
      · split at hstep
        · next hactive => exact ⟨client, _, (Option.some.inj hstep).symm, hactive⟩
        · exact ⟨client, _, (Option.some.inj hstep).symm, trivial⟩
    · contradiction
  | runReload client =>
    simp only [step] at hstep
    split at hstep
    · next update job hupdating =>
      have hjob : (Process.updating update job none).Checked := hupdating ▸ hall client
      exact ⟨client, _, (Option.some.inj hstep).symm, hjob⟩
    · contradiction
  | runCancelCheck client signal =>
    simp only [step] at hstep
    split at hstep
    · next job hpreparing =>
      have hjob : (Process.preparing job).Checked := hpreparing ▸ hall client
      split at hstep
      · exact ⟨client, _, (Option.some.inj hstep).symm, hjob⟩
      · exact ⟨client, _, (Option.some.inj hstep).symm, trivial⟩
    · contradiction
  | runStop client | runReturn client =>
    simp only [step] at hstep
    split at hstep
    · exact ⟨client, _, (Option.some.inj hstep).symm, trivial⟩
    · contradiction
  | runEnd client outcome =>
    simp only [step] at hstep
    split at hstep
    · exact ⟨client, _, (Option.some.inj hstep).symm, trivial⟩
    · obtain ⟨-, hstep⟩ := Option.ite_none_right_eq_some.mp hstep
      exact ⟨client, _, (Option.some.inj hstep).symm, trivial⟩
    · contradiction
  | _ => cases hmove

theorem allChecked_step (hall : AllChecked state) (hcurrent : WritesCurrent state event)
    (hstep : step state event = some state') : AllChecked state' := by
  cases event with
  | runGet client | runCheck client | runReload client | runCancelCheck client signal
  | runStop client | runEnd client outcome | runReturn client =>
    obtain ⟨client, process, rfl, hprocess⟩ := exists_process_of_move hall rfl hcurrent hstep
    exact checked_update hall hprocess
  | runSave client =>
    simp only [step] at hstep
    split at hstep
    · next update job reloaded hupdating =>
      obtain rfl := Option.some.inj hstep
      refine checked_update hall ?_
      cases update with
      | start => exact (show JobStatus.running.Active by decide)
      | cancelBeforeStart | cancelBeforePlaybook => trivial
    · contradiction
  | runFinish client =>
    simp only [step] at hstep
    split at hstep
    · obtain rfl := Option.some.inj hstep
      exact checked_update hall trivial
    · contradiction
  | reapRefresh client | cancelGet client =>
    obtain rfl := Option.some.inj hstep
    exact hall
  | getTasks client =>
    obtain ⟨-, hstep⟩ := Option.ite_none_right_eq_some.mp hstep
    obtain rfl := Option.some.inj hstep
    exact hall
  | reapSave client | cancelFlag client | startTask client preStart uuid
  | failTask client explanation =>
    obtain ⟨copy, -, hstep⟩ := Option.bind_eq_some_iff.mp hstep
    obtain ⟨-, hstep⟩ := Option.ite_none_right_eq_some.mp hstep
    obtain rfl := Option.some.inj hstep
    exact hall
  | cancelStatus client confirmed =>
    obtain ⟨copy, -, hstep⟩ := Option.bind_eq_some_iff.mp hstep
    obtain ⟨-, hstep⟩ := Option.ite_none_right_eq_some.mp hstep
    split at hstep <;> obtain rfl := Option.some.inj hstep <;> exact hall

/-! ## A final status -/

structure Ended (state state' : JobState) : Prop where
  status : state'.row.status = state.row.status
  reported : ∃ added, state'.reported = state.reported ++ added ∧
    ∀ status ∈ added, status = .canceled ∨ status = state.row.status

theorem Ended.of_eq (hstatus : state'.row.status = state.row.status)
    (hreported : state'.reported = state.reported) : Ended state state' :=
  ⟨hstatus, [], by rw [List.append_nil, hreported], nofun⟩

theorem not_final_of_mem {job : Job} {status : JobStatus} (hactive : status.Active)
    (hstatus : job.status = status) : ¬ Final job := by
  rw [Final, hstatus]
  exact not_not_intro hactive

/-- The writers that look at their copy find that the job has ended, and the last
update repeats the status. -/
theorem ended_step (hall : AllChecked state) (hfinal : Final state.row)
    (hcurrent : WritesCurrent state event) (hstep : step state event = some state') :
    Ended state state' := by
  cases event with
  | runGet client | runCheck client | runReload client | runCancelCheck client signal
  | runStop client | runEnd client outcome | runReturn client =>
    obtain ⟨client, process, rfl, -⟩ := exists_process_of_move hall rfl hcurrent hstep
    exact .of_eq rfl rfl
  | runSave client =>
    simp only [step] at hstep
    split at hstep
    · next update job reloaded hupdating =>
      have hjob : (Process.updating update job (some reloaded)).Checked := hupdating ▸ hall client
      simp only [WritesCurrent, hupdating] at hcurrent
      exact absurd hjob (hcurrent hfinal)
    · contradiction
  | runFinish client =>
    simp only [step] at hstep
    split at hstep
    · next status hfinishing =>
      obtain rfl := Option.some.inj hstep
      simp only [WritesCurrent, hfinishing] at hcurrent
      have hsame : state.row.status = status := hcurrent hfinal
      refine ⟨hsame.symm, [status], rfl, fun reported hmem => .inr ?_⟩
      rw [List.mem_singleton.mp hmem, hsame]
    · contradiction
  | reapRefresh client | cancelGet client =>
    obtain rfl := Option.some.inj hstep
    exact .of_eq rfl rfl
  | getTasks client =>
    obtain ⟨-, hstep⟩ := Option.ite_none_right_eq_some.mp hstep
    obtain rfl := Option.some.inj hstep
    exact .of_eq rfl rfl
  | reapSave client =>
    obtain ⟨copy, hcopy, hstep⟩ := Option.bind_eq_some_iff.mp hstep
    obtain ⟨hrunning, -⟩ := Option.ite_none_right_eq_some.mp hstep
    have hactive : ¬ Final copy := by
      rcases List.mem_cons.mp hrunning with hstatus | hstatus
      · exact not_final_of_mem (by decide) hstatus
      · exact not_final_of_mem (by decide) (List.mem_singleton.mp hstatus)
    exact absurd hfinal (hcurrent.not_settled hcopy hactive)
  | cancelFlag client =>
    obtain ⟨copy, -, hstep⟩ := Option.bind_eq_some_iff.mp hstep
    obtain ⟨-, hstep⟩ := Option.ite_none_right_eq_some.mp hstep
    obtain rfl := Option.some.inj hstep
    exact ⟨rfl, [.canceled], rfl, fun status hmem => .inl (List.mem_singleton.mp hmem)⟩
  | cancelStatus client confirmed =>
    obtain ⟨copy, hcopy, hstep⟩ := Option.bind_eq_some_iff.mp hstep
    obtain ⟨hcancel, -⟩ := Option.ite_none_right_eq_some.mp hstep
    exact absurd hfinal (hcurrent.not_settled hcopy (not_not_intro hcancel.1))
  | startTask client preStart uuid | failTask client explanation =>
    obtain ⟨copy, hcopy, hstep⟩ := Option.bind_eq_some_iff.mp hstep
    obtain ⟨hpending, -⟩ := Option.ite_none_right_eq_some.mp hstep
    exact absurd hfinal (hcurrent.not_settled hcopy (not_final_of_mem (by decide) hpending))

def waitingJob : Job where
  isWorkflowJob := false
  status := .waiting
  cancelFlag := false
  celeryTaskId := "task"
  startArgs := ""
  jobExplanation := ""

def runningState : JobState :=
  let loaded := (JobState.start waitingJob).setProcess 0 (.loaded waitingJob)
  let checked := loaded.setProcess 0 (.updating .start waitingJob none)
  let reloaded := checked.setProcess 0 (.updating .start waitingJob (some waitingJob))
  { reloaded.setProcess 0 (.preparing (Update.start.apply waitingJob)) with
    stored := { reloaded.stored with row := Update.start.apply waitingJob }
    reported := [.running] }

def reapedState : JobState :=
  let playbook := runningState.setProcess 0 (.running (Update.start.apply waitingJob))
  (playbook.load 1).save 1 (playbook.row.reap "") [.failed]

theorem run_runningState : Run step WritesCurrent (.start waitingJob) runningState := by
  let loaded := (JobState.start waitingJob).setProcess 0 (.loaded waitingJob)
  let checked := loaded.setProcess 0 (.updating .start waitingJob none)
  let reloaded := checked.setProcess 0 (.updating .start waitingJob (some waitingJob))
  have hloaded : Run step WritesCurrent (.start waitingJob) loaded :=
    .next (.runGet 0) .start trivial rfl
  have hchecked : Run step WritesCurrent (.start waitingJob) checked :=
    .next (.runCheck 0) hloaded (fun hflag => Bool.noConfusion hflag) rfl
  have hreloaded : Run step WritesCurrent (.start waitingJob) reloaded :=
    .next (.runReload 0) hchecked trivial rfl
  exact .next (.runSave 0) hreloaded (fun hfinal => hfinal) rfl

theorem run_reapedState : Run step WritesCurrent (.start waitingJob) reapedState := by
  let playbook := runningState.setProcess 0 (.running (Update.start.apply waitingJob))
  have hplaybook : Run step WritesCurrent (.start waitingJob) playbook :=
    .next (.runCancelCheck 0 false) run_runningState trivial rfl
  have hloaded : Run step WritesCurrent (.start waitingJob) (playbook.load 1) :=
    .next (.reapRefresh 1) hplaybook trivial rfl
  exact .next (.reapSave 1) hloaded (Stored.current_load Final playbook.stored 1) rfl

def finishedState (status : JobStatus) : JobState :=
  { (reapedState.setProcess 0 (.finishing status)).setProcess 0 .ended with
    stored := { reapedState.stored with row := { reapedState.row with status := status } }
    reported := reapedState.reported ++ [status] }

end Forail.StatusWriters
