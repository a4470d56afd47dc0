import Mathlib.Data.List.Nodup
import Mathlib.Logic.Function.Basic

/-!
# Bulk rescheduling

Inside `task_manager_bulk_reschedule` a request for a manager is only noted, and
the manager is scheduled when the context is left.  Contexts may be nested; every
one keeps the flags it found and writes them back.
-/

namespace Forail.BulkReschedule

inductive Manager where
  | taskManager
  | workflowManager
  | dependencyManager
  deriving DecidableEq, Repr

/-- The order of the loops in `task_manager_bulk_reschedule`. -/
def managers : List Manager := [.taskManager, .workflowManager, .dependencyManager]

structure ThreadingLocal where
  bulkReschedule : Bool
  needsScheduling : Bool
  deriving DecidableEq, Repr

/-- One thread; `submitted` lists the managers whose task was submitted, in order. -/
structure Thread where
  threadingLocal : Manager → ThreadingLocal
  submitted : List Manager

namespace Thread

def start : Thread where
  threadingLocal _ := { bulkReschedule := false, needsScheduling := false }
  submitted := []

variable (thread : Thread) (manager : Manager)

def setLocal (flags : ThreadingLocal) : Thread :=
  { thread with threadingLocal := Function.update thread.threadingLocal manager flags }

def schedule : Thread :=
  if (thread.threadingLocal manager).bulkReschedule then
    thread.setLocal manager
      { thread.threadingLocal manager with needsScheduling := true }
  else { thread with submitted := thread.submitted ++ [manager] }

def enterManager : Thread :=
  thread.setLocal manager { bulkReschedule := true, needsScheduling := false }

def exitManager (previous : ThreadingLocal) : Thread :=
  let restored := thread.setLocal manager
    { thread.threadingLocal manager with bulkReschedule := previous.bulkReschedule }
  let scheduled :=
    if (restored.threadingLocal manager).needsScheduling then restored.schedule manager
    else restored
  scheduled.setLocal manager
    { scheduled.threadingLocal manager with needsScheduling := previous.needsScheduling }

def enter : Thread := managers.foldl enterManager thread

def exit (previous : Manager → ThreadingLocal) : Thread :=
  managers.foldl (fun thread manager => thread.exitManager manager (previous manager)) thread

end Thread

/-- What a thread does: it asks for a manager, or it runs a body in a context of
its own.  A body that raises leaves its context like one that ends. -/
inductive Body where
  | done
  | schedule (manager : Manager) (rest : Body)
  | bulk (inner rest : Body)
  deriving DecidableEq, Repr

namespace Body

def run : Body → Thread → Thread
  | done, thread => thread
  | schedule manager rest, thread => run rest (thread.schedule manager)
  | bulk inner rest, thread =>
      run rest ((run inner thread.enter).exit thread.threadingLocal)

def requests : Body → List Manager
  | done => []
  | schedule manager rest => manager :: rest.requests
  | bulk inner rest => inner.requests ++ rest.requests

def directRequests : Body → List Manager
  | done => []
  | schedule manager rest => manager :: rest.directRequests
  | bulk _ rest => rest.directRequests

theorem directRequests_subset (body : Body) : body.directRequests ⊆ body.requests := by
  induction body with
  | done => exact List.Subset.refl []
  | schedule manager rest ih => exact List.cons_subset_cons manager ih
  | bulk inner rest _ ih => exact List.subset_append_of_subset_right inner.requests ih

end Body

/-! ## One manager at a time -/

namespace Thread

variable {thread : Thread} {manager other : Manager}

@[simp]
theorem threadingLocal_setLocal_self (flags : ThreadingLocal) :
    (thread.setLocal manager flags).threadingLocal manager = flags := by
  simp only [setLocal, Function.update_self]

theorem threadingLocal_setLocal_of_ne (hne : manager ≠ other) (flags : ThreadingLocal) :
    (thread.setLocal other flags).threadingLocal manager = thread.threadingLocal manager := by
  simp only [setLocal, Function.update_of_ne hne]

@[simp]
theorem submitted_setLocal (flags : ThreadingLocal) :
    (thread.setLocal manager flags).submitted = thread.submitted := rfl

theorem schedule_of_bulk (hbulk : (thread.threadingLocal manager).bulkReschedule = true) :
    thread.schedule manager = thread.setLocal manager ⟨true, true⟩ := by
  simp only [schedule, hbulk, if_true]

theorem schedule_of_not_bulk
    (hbulk : (thread.threadingLocal manager).bulkReschedule = false) :
    thread.schedule manager = { thread with submitted := thread.submitted ++ [manager] } := by
  rw [schedule, hbulk]
  rfl

theorem exitManager_of_bulk {previous : ThreadingLocal}
    (hprevious : previous.bulkReschedule = true) :
    thread.exitManager manager previous = thread.setLocal manager previous := by
  obtain ⟨bulk, needs⟩ := previous
  obtain rfl : bulk = true := hprevious
  simp only [exitManager, threadingLocal_setLocal_self]
  split
  · rw [schedule_of_bulk (by simp)]
    simp [setLocal]
  · simp [setLocal]

theorem exitManager_of_not_bulk {previous : ThreadingLocal}
    (hprevious : previous.bulkReschedule = false) :
    thread.exitManager manager previous =
      { thread.setLocal manager previous with
        submitted :=
          if (thread.threadingLocal manager).needsScheduling then
            thread.submitted ++ [manager]
          else thread.submitted } := by
  obtain ⟨bulk, needs⟩ := previous
  obtain rfl : bulk = false := hprevious
  simp only [exitManager, threadingLocal_setLocal_self]
  split
  · rw [schedule_of_not_bulk (by simp)]
    simp [setLocal]
  · simp [setLocal]

theorem threadingLocal_enter (thread : Thread) (manager : Manager) :
    thread.enter.threadingLocal manager = ⟨true, false⟩ := by
  cases manager <;> simp [enter, managers, enterManager, setLocal]

@[simp]
theorem submitted_enter (thread : Thread) : thread.enter.submitted = thread.submitted := rfl

theorem exit_of_bulk {previous : Manager → ThreadingLocal}
    (hprevious : ∀ manager, (previous manager).bulkReschedule = true) :
    thread.exit previous = { thread with threadingLocal := previous } := by
  simp only [exit, managers, List.foldl_cons, List.foldl_nil,
    exitManager_of_bulk (hprevious _)]
  simp only [setLocal, Thread.mk.injEq, and_true]
  funext manager
  cases manager <;> simp [Function.update]

def waiting (thread : Thread) : List Manager :=
  managers.filter fun manager => (thread.threadingLocal manager).needsScheduling

theorem foldl_exitManager {previous : Manager → ThreadingLocal}
    (hprevious : ∀ manager, (previous manager).bulkReschedule = false) {left : List Manager}
    (hnodup : left.Nodup) (thread : Thread) :
    left.foldl (fun thread manager => thread.exitManager manager (previous manager)) thread =
      { threadingLocal := fun manager =>
          if manager ∈ left then previous manager else thread.threadingLocal manager
        submitted := thread.submitted ++
          left.filter fun manager => (thread.threadingLocal manager).needsScheduling } := by
  induction left generalizing thread with
  | nil => simp
  | cons first left ih =>
    obtain ⟨hfirst, hleft⟩ := List.nodup_cons.mp hnodup
    rw [List.foldl_cons, exitManager_of_not_bulk (hprevious first), ih hleft]
    have hfilter : (left.filter fun manager =>
        ((thread.setLocal first (previous first)).threadingLocal manager).needsScheduling) =
        left.filter fun manager => (thread.threadingLocal manager).needsScheduling := by
      refine List.filter_congr fun manager hmanager => ?_
      rw [threadingLocal_setLocal_of_ne (ne_of_mem_of_not_mem hmanager hfirst)]
    rw [Thread.mk.injEq]
    constructor
    · funext manager
      by_cases hmanager : manager = first
      · subst hmanager
        simp [hfirst, setLocal]
      · simp [hmanager, setLocal]
    · dsimp only
      rw [hfilter, List.filter_cons]
      split <;> simp

theorem mem_managers (manager : Manager) : manager ∈ managers := by
  cases manager <;> decide

theorem exit_of_not_bulk {previous : Manager → ThreadingLocal}
    (hprevious : ∀ manager, (previous manager).bulkReschedule = false) :
    thread.exit previous =
      { threadingLocal := previous
        submitted := thread.submitted ++ thread.waiting } := by
  rw [exit, foldl_exitManager hprevious (by decide)]
  simp only [mem_managers, if_true, waiting]

theorem count_waiting (thread : Thread) (manager : Manager) :
    thread.waiting.count manager =
      if (thread.threadingLocal manager).needsScheduling then 1 else 0 := by
  have hmanagers : managers.Nodup := by decide
  split
  · next hneeds =>
    exact List.count_eq_one_of_mem (hmanagers.filter _)
      (List.mem_filter.mpr ⟨mem_managers manager, hneeds⟩)
  · next hneeds =>
    refine List.count_eq_zero.mpr fun hwaiting => ?_
    exact hneeds (List.mem_filter.mp hwaiting).2

end Thread

/-! ## Bodies inside a context -/

open Thread

/-- Inside a context nothing is submitted, and only the requests that are not in
a context of their own are noted. -/
theorem Body.run_of_bulk (body : Body) {thread : Thread}
    (hbulk : ∀ manager, (thread.threadingLocal manager).bulkReschedule = true) :
    (body.run thread).submitted = thread.submitted ∧
      ∀ manager, (body.run thread).threadingLocal manager =
        ⟨true, (thread.threadingLocal manager).needsScheduling ||
          decide (manager ∈ body.directRequests)⟩ := by
  induction body generalizing thread with
  | done =>
    refine ⟨rfl, fun manager => ?_⟩
    simp [run, directRequests, ← hbulk manager]
  | schedule asked rest ih =>
    have hnoted : ∀ manager, ((thread.schedule asked).threadingLocal manager) =
        ⟨true, (thread.threadingLocal manager).needsScheduling || decide (manager = asked)⟩ := by
      intro manager
      rw [schedule_of_bulk (hbulk asked)]
      by_cases hmanager : manager = asked
      · subst hmanager
        simp
      · rw [threadingLocal_setLocal_of_ne hmanager]
        simp [hmanager, ← hbulk manager]
    have hrest := ih fun manager => by rw [hnoted manager]
    rw [run]
    refine ⟨?_, fun manager => ?_⟩
    · rw [hrest.1, schedule_of_bulk (hbulk asked), submitted_setLocal]
    · rw [hrest.2, hnoted, directRequests]
      simp [Bool.or_assoc]
  | bulk inner rest ihInner ihRest =>
    have hinner : (inner.run thread.enter).submitted = thread.submitted :=
      (ihInner fun manager => by rw [threadingLocal_enter]).1
    have hleft : (inner.run thread.enter).exit thread.threadingLocal = thread := by
      rw [exit_of_bulk hbulk, hinner]
    rw [run, hleft]
    exact ihRest hbulk

/-- The outermost context submits the managers that were asked for outside of
the contexts in it. -/
theorem Body.count_submitted_bulk (body : Body) {thread : Thread}
    (houtermost : ∀ manager, (thread.threadingLocal manager).bulkReschedule = false)
    (manager : Manager) :
    ((bulk body done).run thread).submitted.count manager =
      thread.submitted.count manager +
        if manager ∈ body.directRequests then 1 else 0 := by
  have henter : ∀ manager, (thread.enter.threadingLocal manager).bulkReschedule = true :=
    fun manager => by rw [threadingLocal_enter]
  have hbody := body.run_of_bulk henter
  rw [run, run, exit_of_not_bulk houtermost, List.count_append, hbody.1, submitted_enter,
    count_waiting, hbody.2, threadingLocal_enter]
  simp

/-- A request is never dropped: what was asked for at any depth is submitted
once when the outermost context is left, and nothing else or earlier. -/
structure Body.Coalesced (body : Body) (thread : Thread) : Prop where
  inside : (body.run thread.enter).submitted = thread.submitted
  onExit : ∀ manager, ((bulk body done).run thread).submitted.count manager =
    thread.submitted.count manager + if manager ∈ body.requests then 1 else 0

theorem coalesced_iff (body : Body) {thread : Thread}
    (houtermost : ∀ manager, (thread.threadingLocal manager).bulkReschedule = false) :
    body.Coalesced thread ↔ body.requests ⊆ body.directRequests := by
  have hinside : (body.run thread.enter).submitted = thread.submitted :=
    (body.run_of_bulk fun manager => by rw [threadingLocal_enter]).1
  constructor
  · intro hcoalesced manager hrequested
    by_contra hdirect
    have hcount := hcoalesced.onExit manager
    rw [body.count_submitted_bulk houtermost manager, if_neg hdirect, if_pos hrequested] at hcount
    omega
  · intro hsubset
    refine ⟨hinside, fun manager => ?_⟩
    have hiff : manager ∈ body.directRequests ↔ manager ∈ body.requests :=
      ⟨fun hdirect => body.directRequests_subset hdirect, fun hrequested => hsubset hrequested⟩
    rw [body.count_submitted_bulk houtermost manager]
    simp only [hiff]

theorem coalesced_repeated_request :
    (Body.bulk (.schedule .taskManager .done) (.schedule .taskManager .done)).Coalesced .start :=
  (coalesced_iff _ fun _ => rfl).mpr (by decide)

theorem inner_request_dropped :
    ¬ ∀ body : Body, body.Coalesced .start := by
  intro hclaim
  have hcount := (hclaim (.bulk (.schedule .taskManager .done) .done)).onExit .taskManager
  revert hcount
  decide

end Forail.BulkReschedule
