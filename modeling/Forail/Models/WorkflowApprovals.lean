import Mathlib.Data.Int.Notation
import Forail.Core.Copies
import Forail.Core.Runs
import Forail.Models.UnifiedJobs

/-!
# Decisions on a workflow approval

An approval node waits in `pending` until a request approves or denies it, its
workflow is canceled, or the task manager finds it expired.  Each of them loads
the row, looks at the status of its copy and stores the outcome later, and none
looks at the row again.
-/

namespace Forail.WorkflowApprovals

open Forail.Copies Forail.Runs Forail.UnifiedJobs

abbrev UserId := ℕ

abbrev Client := ℕ

structure WorkflowApproval where
  pk : ℕ
  name : String
  status : JobStatus
  cancelFlag : Bool
  jobExplanation : String
  startArgs : String
  created : ℤ
  timeout : ℤ
  expires : Option ℤ
  timedOut : Bool
  approvedOrDeniedBy : Option UserId
  deriving DecidableEq, Repr

namespace WorkflowApproval

variable (approval : WorkflowApproval)

def save : WorkflowApproval :=
  { approval with
    expires := if approval.timeout ≠ 0 then some (approval.created + approval.timeout) else none }

def approve (user : UserId) : WorkflowApproval :=
  save { approval with status := .successful, approvedOrDeniedBy := some user }

def deny (user : UserId) : WorkflowApproval :=
  save { approval with status := .failed, approvedOrDeniedBy := some user }

def timeoutMessage : String :=
  s!"The approval node {approval.name} ({approval.pk}) has expired after {approval.timeout} seconds."

def expired (now : ℤ) : Bool :=
  decide (approval.status = .pending) && decide (approval.timeout ≠ 0) &&
    approval.expires.any fun expires => decide (expires < now)

def canCancel : Bool := approval.status.Active

end WorkflowApproval

open WorkflowApproval

inductive Event where
  /-- A request or the workflow manager loads the row. -/
  | get (client : Client)
  /-- The task manager loads the rows that have expired. -/
  | getExpired (client : Client) (now : ℤ)
  | approve (client : Client) (user : UserId)
  | deny (client : Client) (user : UserId)
  /-- The two saves of `cancel`; an approval is never handed to a dispatcher. -/
  | cancelFlag (client : Client)
  | cancelStatus (client : Client)
  | timeout (client : Client)
  deriving DecidableEq

/-- A request whose copy is not pending is refused and stores nothing. -/
def step (state : Stored Client WorkflowApproval) :
    Event → Option (Stored Client WorkflowApproval)
  | .get client => some (state.load client)
  | .getExpired client now =>
      if state.row.expired now then some (state.load client) else none
  | .approve client user =>
      (state.copies client).bind fun copy =>
        if copy.status = .pending then some (state.store client (copy.approve user) none)
        else some (state.store client state.row none)
  | .deny client user =>
      (state.copies client).bind fun copy =>
        if copy.status = .pending then some (state.store client (copy.deny user) none)
        else some (state.store client state.row none)
  | .cancelFlag client =>
      (state.copies client).bind fun copy =>
        if copy.canCancel && !copy.cancelFlag then
          some (state.store client { state.row with cancelFlag := true, startArgs := "" }
            (some { copy with cancelFlag := true, startArgs := "" }))
        else none
  | .cancelStatus client =>
      (state.copies client).bind fun copy =>
        if copy.canCancel && copy.cancelFlag then
          some (state.store client { state.row with status := .canceled } none)
        else none
  | .timeout client =>
      (state.copies client).bind fun copy =>
        if copy.status = .pending && decide (copy.timeout ≠ 0) then
          some (state.store client
            { state.row with
              status := .failed
              timedOut := true
              jobExplanation := copy.timeoutMessage } none)
        else none

/-! ## One decision -/

def Decided (approval : WorkflowApproval) : Prop := ¬ approval.status.Active

def decision (approval : WorkflowApproval) : JobStatus × Bool × Option UserId :=
  (approval.status, approval.timedOut, approval.approvedOrDeniedBy)

def DecidesCurrent (state : Stored Client WorkflowApproval) : Event → Prop
  | .approve client _ | .deny client _ | .cancelStatus client | .timeout client =>
      state.Current Decided client
  | _ => True

variable {state state' later : Stored Client WorkflowApproval} {event : Event}

theorem not_decided_of_pending {approval : WorkflowApproval}
    (hpending : approval.status = .pending) : ¬ Decided approval := by
  rw [Decided, hpending]
  decide

/-- On a decided row a step with a current copy changes nothing of the decision:
the copy is decided as well, and the request refused. -/
theorem decision_step (hdecided : Decided state.row) (hcurrent : DecidesCurrent state event)
    (hstep : step state event = some state') :
    Decided state'.row ∧ decision state'.row = decision state.row := by
  cases event with
  | get client =>
    obtain rfl := Option.some.inj hstep
    exact ⟨hdecided, rfl⟩
  | getExpired client now =>
    obtain ⟨-, hstep⟩ := Option.ite_none_right_eq_some.mp hstep
    obtain rfl := Option.some.inj hstep
    exact ⟨hdecided, rfl⟩
  | approve client user | deny client user =>
    obtain ⟨copy, hcopy, hstep⟩ := Option.bind_eq_some_iff.mp hstep
    split at hstep
    · next hpending =>
      exact absurd hdecided (hcurrent.not_settled hcopy (not_decided_of_pending hpending))
    · obtain rfl := Option.some.inj hstep
      exact ⟨hdecided, rfl⟩
  | cancelFlag client =>
    obtain ⟨copy, hcopy, hstep⟩ := Option.bind_eq_some_iff.mp hstep
    obtain ⟨-, hstep⟩ := Option.ite_none_right_eq_some.mp hstep
    obtain rfl := Option.some.inj hstep
    exact ⟨hdecided, rfl⟩
  | cancelStatus client =>
    obtain ⟨copy, hcopy, hstep⟩ := Option.bind_eq_some_iff.mp hstep
    obtain ⟨hcancel, -⟩ := Option.ite_none_right_eq_some.mp hstep
    have hactive := of_decide_eq_true (Bool.and_eq_true_iff.mp hcancel).1
    exact absurd hdecided (hcurrent.not_settled hcopy (not_not_intro hactive))
  | timeout client =>
    obtain ⟨copy, hcopy, hstep⟩ := Option.bind_eq_some_iff.mp hstep
    obtain ⟨hexpired, -⟩ := Option.ite_none_right_eq_some.mp hstep
    have hpending := of_decide_eq_true (Bool.and_eq_true_iff.mp hexpired).1
    exact absurd hdecided (hcurrent.not_settled hcopy (not_decided_of_pending hpending))

theorem pending_or_decided_step (hrow : state.row.status = .pending ∨ Decided state.row)
    (hstep : step state event = some state') :
    state'.row.status = .pending ∨ Decided state'.row := by
  cases event with
  | get client =>
    obtain rfl := Option.some.inj hstep
    exact hrow
  | getExpired client now =>
    obtain ⟨-, hstep⟩ := Option.ite_none_right_eq_some.mp hstep
    obtain rfl := Option.some.inj hstep
    exact hrow
  | approve client user =>
    obtain ⟨copy, hcopy, hstep⟩ := Option.bind_eq_some_iff.mp hstep
    split at hstep <;> obtain rfl := Option.some.inj hstep
    · exact .inr (show ¬ JobStatus.successful.Active by decide)
    · exact hrow
  | deny client user =>
    obtain ⟨copy, hcopy, hstep⟩ := Option.bind_eq_some_iff.mp hstep
    split at hstep <;> obtain rfl := Option.some.inj hstep
    · exact .inr (show ¬ JobStatus.failed.Active by decide)
    · exact hrow
  | cancelFlag client =>
    obtain ⟨copy, hcopy, hstep⟩ := Option.bind_eq_some_iff.mp hstep
    obtain ⟨-, hstep⟩ := Option.ite_none_right_eq_some.mp hstep
    obtain rfl := Option.some.inj hstep
    exact hrow
  | cancelStatus client =>
    obtain ⟨copy, hcopy, hstep⟩ := Option.bind_eq_some_iff.mp hstep
    obtain ⟨-, hstep⟩ := Option.ite_none_right_eq_some.mp hstep
    obtain rfl := Option.some.inj hstep
    exact .inr (show ¬ JobStatus.canceled.Active by decide)
  | timeout client =>
    obtain ⟨copy, hcopy, hstep⟩ := Option.bind_eq_some_iff.mp hstep
    obtain ⟨-, hstep⟩ := Option.ite_none_right_eq_some.mp hstep
    obtain rfl := Option.some.inj hstep
    exact .inr (show ¬ JobStatus.failed.Active by decide)

/-- A decision that was stored stays, in every run in which each decision is made
on a current copy. -/
theorem decided_once {approval : WorkflowApproval} (hpending : approval.status = .pending)
    (hrun : Run step DecidesCurrent (.fresh approval) state)
    (hleft : state.row.status ≠ .pending) (hlater : Run step DecidesCurrent state later) :
    decision later.row = decision state.row := by
  have hrow : state.row.status = .pending ∨ Decided state.row :=
    hrun.invariant (fun state => state.row.status = .pending ∨ Decided state.row)
      (.inl hpending) fun _ _ _ hrow _ hstep => pending_or_decided_step hrow hstep
  have hdecided : Decided state.row := hrow.resolve_left hleft
  exact (hlater.keeps (fun state => Decided state.row) (fun state => decision state.row)
    (fun _ _ _ hdecided hcurrent hstep => decision_step hdecided hcurrent hstep) hdecided).2

/-! ## Two answers -/

def waitingApproval : WorkflowApproval where
  pk := 7
  name := "deploy"
  status := .pending
  cancelFlag := false
  jobExplanation := ""
  startArgs := ""
  created := 0
  timeout := 60
  expires := some 60
  timedOut := false
  approvedOrDeniedBy := none

theorem decided_once_approved :
    ∃ state later, Run step DecidesCurrent (.fresh waitingApproval) state ∧
      Run step DecidesCurrent state later ∧
      decision state.row = (.successful, false, some 1) ∧
      decision later.row = decision state.row := by
  let loaded : Stored Client WorkflowApproval := (Stored.fresh waitingApproval).load 0
  let approved := loaded.store 0 (waitingApproval.approve 1) none
  have hrun : Run step DecidesCurrent (.fresh waitingApproval) approved :=
    .next (.approve 0 1) (.next (.get 0) .start trivial rfl)
      (Stored.current_load Decided (.fresh waitingApproval) 0) rfl
  have hlater : Run step DecidesCurrent approved
      ((approved.load 1).store 1 (approved.load 1).row none) :=
    .next (.deny 1 2) (.next (.get 1) .start trivial rfl)
      (Stored.current_load Decided approved 1) rfl
  exact ⟨_, _, hrun, hlater, rfl, decided_once rfl hrun (by decide) hlater⟩

theorem denied_after_approved :
    ¬ ∀ (approval : WorkflowApproval) (state later : Stored Client WorkflowApproval),
      approval.status = .pending → Run step (fun _ _ => True) (.fresh approval) state →
        state.row.status ≠ .pending → Run step (fun _ _ => True) state later →
          decision later.row = decision state.row := by
  intro hclaim
  let loaded : Stored Client WorkflowApproval := ((Stored.fresh waitingApproval).load 0).load 1
  let approved := loaded.store 0 (waitingApproval.approve 1) none
  have hrun : Run step (fun _ _ => True) (.fresh waitingApproval) approved :=
    .next (.approve 0 1)
      (.next (.get 1) (.next (.get 0) .start trivial rfl) trivial rfl) trivial rfl
  have hlater : Run step (fun _ _ => True) approved
      (approved.store 1 (waitingApproval.deny 2) none) :=
    .next (.deny 1 2) .start trivial rfl
  have hkept := hclaim _ _ _ rfl hrun (by decide) hlater
  exact absurd hkept (by decide)

end Forail.WorkflowApprovals
