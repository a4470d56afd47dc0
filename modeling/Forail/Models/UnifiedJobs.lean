import Mathlib.Data.List.Basic

/-!
# Job statuses and cancellation

The statuses of a `UnifiedJob` and the part of its fields that decides how the
schedulers treat it.
-/

namespace Forail.UnifiedJobs

inductive JobStatus where
  | new
  | pending
  | waiting
  | running
  | successful
  | failed
  | error
  | canceled
  deriving DecidableEq, Repr

namespace JobStatus

def name : JobStatus → String
  | new => "new"
  | pending => "pending"
  | waiting => "waiting"
  | running => "running"
  | successful => "successful"
  | failed => "failed"
  | error => "error"
  | canceled => "canceled"

/-- `ACTIVE_STATES`, which is also `CAN_CANCEL`. -/
def Active (status : JobStatus) : Prop :=
  status ∈ [new, pending, waiting, running]

instance : DecidablePred Active := fun status =>
  inferInstanceAs (Decidable (status ∈ [new, pending, waiting, running]))

def Unsuccessful (status : JobStatus) : Prop :=
  status ∈ [failed, error, canceled]

instance : DecidablePred Unsuccessful := fun status =>
  inferInstanceAs (Decidable (status ∈ [failed, error, canceled]))

theorem active_or_successful_or_unsuccessful (status : JobStatus) :
    status.Active ∨ status = successful ∨ status.Unsuccessful := by
  cases status <;> decide

theorem mem_final_of_not_active {status : JobStatus}
    (hended : ¬ status.Active) : status ∈ [successful, failed, canceled, error] := by
  cases status <;> revert hended <;> decide

theorem not_active_successful : ¬ successful.Active := by decide

theorem Unsuccessful.not_active {status : JobStatus}
    (hstatus : status.Unsuccessful) : ¬ status.Active := by
  cases status <;> revert hstatus <;> decide

theorem Unsuccessful.ne_successful {status : JobStatus}
    (hstatus : status.Unsuccessful) : status ≠ successful := by
  rintro rfl
  exact absurd hstatus (by decide)

end JobStatus

structure UnifiedJob where
  status : JobStatus
  celeryTaskId : String
  cancelFlag : Bool
  deriving DecidableEq, Repr

namespace UnifiedJob

def canCancel (job : UnifiedJob) : Bool := job.status.Active

/-- `cancel` as it runs inside the workflow manager.  A job with a task id has
been handed to a dispatcher; within the manager's transaction
`cancel_dispatcher_process` then answers `True` without waiting, and the status
is left to the control process of the job.  Without a task id the job is
canceled on the spot.  The jobs of `get_jobs_fail_chain` are canceled by the
same rule. -/
def cancel (job : UnifiedJob) : UnifiedJob :=
  if job.canCancel then
    { job with
      cancelFlag := true
      status := if job.celeryTaskId ≠ "" then job.status else .canceled }
  else job

end UnifiedJob

end Forail.UnifiedJobs
