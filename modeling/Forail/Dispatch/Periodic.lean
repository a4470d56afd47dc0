import Forail.Core.Grids
import Mathlib.Data.List.MinMax
import Mathlib.Data.Rat.Floor

/-!
# The periodic tasks of the dispatcher

The dispatcher asks its scheduler for the tasks that are due each time it wakes up.  A
task is due from its target on, and the target behind a run is computed from the number
of periods that have passed, so that missed runs are not made up for.
-/

namespace Forail.Periodic

open Forail.Grids

variable {Data : Type*}

/-- An entry of the schedule: `data['schedule'].total_seconds()`, and what else the entry
holds for the caller. -/
structure Entry (Data : Type*) where
  totalSeconds : ℚ
  rest : Data

structure Schedule (Data : Type*) where
  items : List (String × Entry Data)
  nodup : (items.map Prod.fst).Nodup

structure ScheduledTask (Data : Type*) where
  interval : ℤ
  offset : ℤ
  index : ℤ
  lastRun : Option ℚ
  completedRuns : ℕ
  name : String
  data : Entry Data

/-- Python's `int`, which drops the digits behind the point. -/
def int (value : ℚ) : ℤ := if 0 ≤ value then ⌊value⌋ else ⌈value⌉

namespace ScheduledTask

def init (name : String) (data : Entry Data) : ScheduledTask Data where
  interval := int data.totalSeconds
  offset := 0
  index := 0
  lastRun := none
  completedRuns := 0
  name := name
  data := data

variable (task : ScheduledTask Data) (relativeTime : ℚ)

def nextRun : ℤ := (task.index + 1) * task.interval + task.offset

def dueToRun : Prop := (task.nextRun : ℚ) ≤ relativeTime

instance : Decidable (task.dueToRun relativeTime) := inferInstanceAs (Decidable (_ ≤ _))

def expectedRuns : ℤ := int ((relativeTime - task.offset) / task.interval)

def markRun : ScheduledTask Data :=
  { task with
    lastRun := some relativeTime
    completedRuns := task.completedRuns + 1
    index := task.expectedRuns relativeTime }

def asked : ScheduledTask Data :=
  if task.dueToRun relativeTime then task.markRun relativeTime else task

end ScheduledTask

inductive SchedulerError where
  /-- `min()` of no intervals. -/
  | emptySchedule
  | tooManySchedules (numJobs : ℕ) (minInterval : ℤ)
  deriving DecidableEq, Repr

structure Scheduler (Data : Type*) where
  jobs : List (ScheduledTask Data)
  globalStart : ℚ

namespace Scheduler

def spaced (minInterval : ℤ) (numJobs : ℕ) (jobs : List (ScheduledTask Data)) :
    List (ScheduledTask Data) :=
  jobs.mapIdx fun i job => { job with offset := (i * minInterval) / numJobs }

def init (schedule : Schedule Data) (time : ℚ) : Except SchedulerError (Scheduler Data) :=
  let jobs := schedule.items.map fun item => ScheduledTask.init item.1 item.2
  match (jobs.map ScheduledTask.interval).min? with
  | none => .error .emptySchedule
  | some minInterval =>
      let numJobs := jobs.length
      if minInterval < (numJobs : ℤ) then .error (.tooManySchedules numJobs minInterval)
      else .ok ⟨spaced minInterval numJobs jobs, time + 2⟩

def markPending (relativeTime : ℚ) :
    List (ScheduledTask Data) → List (ScheduledTask Data) × List (ScheduledTask Data)
  | [] => ([], [])
  | job :: jobs =>
      let (toRun, rest) := markPending relativeTime jobs
      if job.dueToRun relativeTime then
        (job.markRun relativeTime :: toRun, job.markRun relativeTime :: rest)
      else (toRun, job :: rest)

def getAndMarkPending (scheduler : Scheduler Data) (time : ℚ) :
    List (ScheduledTask Data) × Scheduler Data :=
  let (toRun, jobs) := markPending (time - scheduler.globalStart) scheduler.jobs
  (toRun, { scheduler with jobs := jobs })

end Scheduler

/-- A question of the dispatcher: its time since the start of the scheduler, the jobs
before it, those that it hands out and the jobs behind it. -/
structure Ask (Data : Type*) where
  relativeTime : ℚ
  before : List (ScheduledTask Data)
  toRun : List (ScheduledTask Data)
  after : List (ScheduledTask Data)

def asks (scheduler : Scheduler Data) : List ℚ → List (Ask Data)
  | [] => []
  | time :: times =>
      let (toRun, next) := scheduler.getAndMarkPending time
      ⟨time - scheduler.globalStart, scheduler.jobs, toRun, next.jobs⟩ :: asks next times

def handOuts (name : String) (history : List (Ask Data)) : List ℚ :=
  history.flatMap fun ask =>
    (ask.toRun.filter fun job => job.name = name).map fun _ => ask.relativeTime

def targets (name : String) (history : List (Ask Data)) : List ℤ :=
  history.flatMap fun ask =>
    (ask.after.filter fun job => job.name = name).map ScheduledTask.nextRun

/-! ## One task -/

theorem int_of_nonneg {value : ℚ} (hvalue : 0 ≤ value) : int value = ⌊value⌋ := if_pos hvalue

namespace ScheduledTask

structure Placed (task : ScheduledTask Data) : Prop where
  interval_pos : 0 < task.interval
  index_nonneg : 0 ≤ task.index

variable {task : ScheduledTask Data} {relativeTime : ℚ}

def periodOf (task : ScheduledTask Data) (relativeTime : ℚ) : ℤ :=
  periodAt (task.interval : ℚ) task.offset relativeTime

theorem cast_nextRun :
    (task.nextRun : ℚ) = instant (task.interval : ℚ) task.offset (task.index + 1) := by
  rw [nextRun, instant, add_comm]
  push_cast
  rfl

theorem Placed.interval_cast_pos (hplaced : task.Placed) : 0 < (task.interval : ℚ) :=
  Int.cast_pos.mpr hplaced.interval_pos

theorem Placed.dueToRun_iff (hplaced : task.Placed) :
    task.dueToRun relativeTime ↔ task.index < task.periodOf relativeTime := by
  rw [dueToRun, cast_nextRun, instant_le_iff hplaced.interval_cast_pos, Int.add_one_le_iff,
    periodOf]

theorem Placed.index_markRun (hplaced : task.Placed) (hdue : task.dueToRun relativeTime) :
    (task.markRun relativeTime).index = task.periodOf relativeTime := by
  have hperiod : 0 ≤ task.periodOf relativeTime :=
    hplaced.index_nonneg.trans (hplaced.dueToRun_iff.mp hdue).le
  exact int_of_nonneg (Int.floor_nonneg.mp hperiod)

theorem Placed.markRun (hplaced : task.Placed) (hdue : task.dueToRun relativeTime) :
    (task.markRun relativeTime).Placed where
  interval_pos := hplaced.interval_pos
  index_nonneg := by
    rw [hplaced.index_markRun hdue]
    exact hplaced.index_nonneg.trans (hplaced.dueToRun_iff.mp hdue).le

theorem Placed.asked (hplaced : task.Placed) : (task.asked relativeTime).Placed := by
  rw [ScheduledTask.asked]
  split
  · next hdue => exact hplaced.markRun hdue
  · exact hplaced

theorem Placed.nextRun_markRun (hplaced : task.Placed) (hdue : task.dueToRun relativeTime) :
    relativeTime < (task.markRun relativeTime).nextRun ∧
      ((task.markRun relativeTime).nextRun : ℚ) ≤ relativeTime + task.interval := by
  have hnext : ((task.markRun relativeTime).nextRun : ℚ) =
      instant (task.interval : ℚ) task.offset (task.periodOf relativeTime + 1) := by
    rw [cast_nextRun, hplaced.index_markRun hdue]
    rfl
  rw [hnext]
  exact next_instant hplaced.interval_cast_pos

theorem Placed.nextRun_le_asked (hplaced : task.Placed) :
    task.nextRun ≤ (task.asked relativeTime).nextRun := by
  rw [ScheduledTask.asked]
  split
  · next hdue =>
    have hcast : (task.nextRun : ℚ) ≤ (task.markRun relativeTime).nextRun :=
      le_trans hdue (hplaced.nextRun_markRun hdue).1.le
    exact Int.cast_le.mp hcast
  · exact le_rfl

theorem name_asked : (task.asked relativeTime).name = task.name := by
  rw [asked]
  split <;> rfl

def runTimes : ScheduledTask Data → List ℚ → List ℚ
  | _, [] => []
  | task, time :: times =>
      if task.dueToRun time then time :: runTimes (task.markRun time) times
      else runTimes task times

theorem Placed.periods_runTimes (hplaced : task.Placed) (times : List ℚ) :
    (task.index :: (task.runTimes times).map task.periodOf).Pairwise (· < ·) := by
  induction times generalizing task with
  | nil => exact List.pairwise_singleton _ _
  | cons time times ih =>
    rw [runTimes]
    split
    · next hdue =>
      have hlater := ih (hplaced.markRun hdue)
      rw [hplaced.index_markRun hdue] at hlater
      have hlt : task.index < task.periodOf time := hplaced.dueToRun_iff.mp hdue
      rw [List.map_cons, List.pairwise_cons]
      refine ⟨fun period hperiod => ?_, hlater⟩
      rcases List.mem_cons.mp hperiod with rfl | hperiod
      · exact hlt
      · exact hlt.trans (List.rel_of_pairwise_cons hlater hperiod)
    · exact ih hplaced

def nextRuns : ScheduledTask Data → List ℚ → List ℤ
  | _, [] => []
  | task, time :: times => (task.asked time).nextRun :: nextRuns (task.asked time) times

theorem Placed.sorted_nextRuns (hplaced : task.Placed) (times : List ℚ) :
    (task.nextRun :: task.nextRuns times).Pairwise (· ≤ ·) := by
  induction times generalizing task with
  | nil => exact List.pairwise_singleton _ _
  | cons time times ih =>
    have hasked : (task.asked time).Placed := hplaced.asked
    have hlater := ih hasked
    rw [nextRuns, List.pairwise_cons]
    refine ⟨fun target htarget => ?_, hlater⟩
    rcases List.mem_cons.mp htarget with rfl | htarget
    · exact hplaced.nextRun_le_asked
    · exact hplaced.nextRun_le_asked.trans (List.rel_of_pairwise_cons hlater htarget)

end ScheduledTask

/-! ## All tasks -/

namespace Scheduler

variable {scheduler : Scheduler Data} {jobs : List (ScheduledTask Data)} {time : ℚ}

theorem markPending_eq (relativeTime : ℚ) (jobs : List (ScheduledTask Data)) :
    markPending relativeTime jobs =
      ((jobs.filter fun job => job.dueToRun relativeTime).map (·.markRun relativeTime),
        jobs.map (·.asked relativeTime)) := by
  induction jobs with
  | nil => rfl
  | cons job jobs ih =>
    rw [markPending, ih, List.map_cons, ScheduledTask.asked]
    dsimp only
    by_cases hdue : job.dueToRun relativeTime
    · rw [if_pos hdue, if_pos hdue, List.filter_cons_of_pos (by simpa using hdue), List.map_cons]
    · rw [if_neg hdue, if_neg hdue, List.filter_cons_of_neg (by simpa using hdue)]

structure Ready (scheduler : Scheduler Data) : Prop where
  nodup : (scheduler.jobs.map ScheduledTask.name).Nodup
  placed : ∀ job ∈ scheduler.jobs, job.Placed

theorem jobs_getAndMarkPending : (scheduler.getAndMarkPending time).2.jobs =
    scheduler.jobs.map (·.asked (time - scheduler.globalStart)) := by
  rw [getAndMarkPending, markPending_eq]

theorem toRun_getAndMarkPending : (scheduler.getAndMarkPending time).1 =
    (scheduler.jobs.filter fun job => job.dueToRun (time - scheduler.globalStart)).map
      (·.markRun (time - scheduler.globalStart)) := by
  rw [getAndMarkPending, markPending_eq]

theorem Ready.next (hready : scheduler.Ready) :
    (scheduler.getAndMarkPending time).2.Ready where
  nodup := by
    rw [jobs_getAndMarkPending, List.map_map]
    have hnames : ScheduledTask.name ∘ (·.asked (time - scheduler.globalStart)) =
        (ScheduledTask.name : ScheduledTask Data → String) := by
      funext job
      exact ScheduledTask.name_asked
    rw [hnames]
    exact hready.nodup
  placed := by
    rw [jobs_getAndMarkPending]
    intro job hjob
    obtain ⟨before, hbefore, rfl⟩ := List.mem_map.mp hjob
    exact (hready.placed before hbefore).asked

theorem Ready.asks (hready : scheduler.Ready) (times : List ℚ) :
    ∀ ask ∈ asks scheduler times, ∃ state : Scheduler Data, ∃ time : ℚ, state.Ready ∧
      ask = ⟨time - state.globalStart, state.jobs, (state.getAndMarkPending time).1,
        (state.getAndMarkPending time).2.jobs⟩ := by
  induction times generalizing scheduler with
  | nil => exact fun _ hask => absurd hask List.not_mem_nil
  | cons time times ih =>
    intro ask hask
    rcases List.mem_cons.mp hask with rfl | hask
    · exact ⟨scheduler, time, hready, rfl⟩
    · exact ih hready.next ask hask

theorem filter_name_eq (hnodup : (jobs.map ScheduledTask.name).Nodup)
    {job : ScheduledTask Data} (hjob : job ∈ jobs) :
    (jobs.filter fun other => other.name = job.name) = [job] := by
  induction jobs with
  | nil => exact absurd hjob List.not_mem_nil
  | cons head jobs ih =>
    rw [List.map_cons, List.nodup_cons] at hnodup
    rcases List.mem_cons.mp hjob with rfl | hjob
    · rw [List.filter_cons_of_pos (by simp)]
      have hnone : (jobs.filter fun other => other.name = job.name) = [] := by
        refine List.filter_eq_nil_iff.mpr fun other hother hname => hnodup.1 ?_
        rw [← of_decide_eq_true hname]
        exact List.mem_map_of_mem hother
      rw [hnone]
    · have hne : head.name ≠ job.name := by
        intro hname
        exact hnodup.1 (hname ▸ List.mem_map_of_mem hjob)
      rw [List.filter_cons_of_neg (by simpa using hne)]
      exact ih hnodup.2 hjob

theorem Ready.filter_jobs_next (hready : scheduler.Ready) {job : ScheduledTask Data}
    (hjob : job ∈ scheduler.jobs) :
    ((scheduler.getAndMarkPending time).2.jobs.filter fun other => other.name = job.name) =
      [job.asked (time - scheduler.globalStart)] := by
  have hmem : job.asked (time - scheduler.globalStart) ∈
      (scheduler.getAndMarkPending time).2.jobs := by
    rw [jobs_getAndMarkPending]
    exact List.mem_map_of_mem hjob
  have hfilter := filter_name_eq hready.next.nodup hmem
  rw [ScheduledTask.name_asked] at hfilter
  exact hfilter

theorem Ready.filter_toRun (hready : scheduler.Ready) {job : ScheduledTask Data}
    (hjob : job ∈ scheduler.jobs) :
    ((scheduler.getAndMarkPending time).1.filter fun other => other.name = job.name) =
      if job.dueToRun (time - scheduler.globalStart) then
        [job.markRun (time - scheduler.globalStart)] else [] := by
  have hnames : (fun other : ScheduledTask Data => decide (other.name = job.name)) ∘
      (fun other : ScheduledTask Data => other.markRun (time - scheduler.globalStart)) =
        fun other => decide (other.name = job.name) := rfl
  rw [toRun_getAndMarkPending, List.filter_map, hnames, List.filter_comm,
    filter_name_eq hready.nodup hjob, List.filter_singleton]
  by_cases hdue : job.dueToRun (time - scheduler.globalStart)
  · rw [if_pos hdue, decide_eq_true hdue]
    rfl
  · rw [if_neg hdue, decide_eq_false hdue]
    rfl

theorem mem_asked {job : ScheduledTask Data} (hjob : job ∈ scheduler.jobs) (time : ℚ) :
    job.asked (time - scheduler.globalStart) ∈ (scheduler.getAndMarkPending time).2.jobs := by
  rw [jobs_getAndMarkPending]
  exact List.mem_map_of_mem hjob

theorem Ready.handOuts_eq (hready : scheduler.Ready) {job : ScheduledTask Data}
    (hjob : job ∈ scheduler.jobs) (times : List ℚ) :
    handOuts job.name (Periodic.asks scheduler times) =
      job.runTimes (times.map (· - scheduler.globalStart)) := by
  induction times generalizing scheduler job with
  | nil => rfl
  | cons time times ih =>
    have hlater := ih hready.next (mem_asked hjob time)
    rw [ScheduledTask.name_asked] at hlater
    rw [Periodic.asks, handOuts, List.flatMap_cons, hready.filter_toRun hjob, List.map_cons,
      ScheduledTask.runTimes]
    change _ ++ handOuts _ _ = _
    rw [hlater, ScheduledTask.asked]
    split <;> rfl

theorem Ready.targets_eq (hready : scheduler.Ready) {job : ScheduledTask Data}
    (hjob : job ∈ scheduler.jobs) (times : List ℚ) :
    targets job.name (Periodic.asks scheduler times) =
      job.nextRuns (times.map (· - scheduler.globalStart)) := by
  induction times generalizing scheduler job with
  | nil => rfl
  | cons time times ih =>
    have hlater := ih hready.next (mem_asked hjob time)
    rw [ScheduledTask.name_asked] at hlater
    rw [Periodic.asks, targets, List.flatMap_cons, hready.filter_jobs_next hjob]
    change _ ++ targets _ _ = _
    rw [hlater]
    rfl

end Scheduler

/-! ## The start -/

variable {scheduler : Scheduler Data} {schedule : Schedule Data} {start : ℚ}

theorem offset_lt_offset {minInterval : ℤ} {numJobs i j : ℕ} (hmin : (numJobs : ℤ) ≤ minInterval)
    (hpos : 0 < numJobs) (hlt : j < i) :
    (j * minInterval) / numJobs < (i * minInterval) / (numJobs : ℤ) := by
  have hcast : (0 : ℤ) < numJobs := Int.natCast_pos.mpr hpos
  have hstep : (j : ℤ) * minInterval + numJobs ≤ i * minInterval := calc
    (j : ℤ) * minInterval + numJobs ≤ j * minInterval + minInterval := by omega
    _ = (j + 1 : ℤ) * minInterval := by ring
    _ ≤ i * minInterval := mul_le_mul_of_nonneg_right (by omega) (by omega)
  calc
    (j * minInterval) / (numJobs : ℤ) < j * minInterval / numJobs + 1 := by omega
    _ = (j * minInterval + numJobs) / numJobs := by
      rw [Int.add_ediv_of_dvd_right dvd_rfl, Int.ediv_self hcast.ne']
    _ ≤ i * minInterval / numJobs := Int.ediv_le_ediv hcast hstep

theorem offset_lt_minInterval {minInterval : ℤ} {numJobs i : ℕ} (hmin : (numJobs : ℤ) ≤ minInterval)
    (hlt : i < numJobs) :
    0 ≤ (i * minInterval) / (numJobs : ℤ) ∧ (i * minInterval) / (numJobs : ℤ) < minInterval := by
  have hcast : (0 : ℤ) < numJobs := by omega
  constructor
  · exact Int.ediv_nonneg (mul_nonneg (by omega) (by omega)) hcast.le
  · rw [Int.ediv_lt_iff_lt_mul hcast, mul_comm]
    exact mul_lt_mul_of_pos_left (by omega) (by omega)

/-- A scheduler is only built for positive intervals, of which none is shorter than the
number of jobs. -/
theorem init_cases (hinit : Scheduler.init schedule start = .ok scheduler) :
    ∃ minInterval : ℤ, (schedule.items.length : ℤ) ≤ minInterval ∧ 0 < schedule.items.length ∧
      (∀ item ∈ schedule.items, minInterval ≤ int item.2.totalSeconds) ∧
      scheduler.jobs = Scheduler.spaced minInterval schedule.items.length
        (schedule.items.map fun item => ScheduledTask.init item.1 item.2) := by
  unfold Scheduler.init at hinit
  dsimp only at hinit
  split at hinit
  · exact absurd hinit fun h => nomatch h
  next minInterval hminInterval =>
    obtain ⟨hmem, hle⟩ := List.min?_eq_some_iff.mp hminInterval
    rw [List.length_map] at hinit
    split at hinit
    · exact absurd hinit fun h => nomatch h
    next henough =>
      have hjobs := Except.ok.inj hinit
      refine ⟨minInterval, not_lt.mp henough, ?_, ?_, ?_⟩
      · obtain ⟨job, hjob, -⟩ := List.mem_map.mp hmem
        rw [← List.length_map (f := fun item => ScheduledTask.init item.1 item.2)]
        exact List.length_pos_of_mem hjob
      · intro item hitem
        exact hle _ (List.mem_map_of_mem (List.mem_map_of_mem hitem))
      · rw [← hjobs]

theorem ready_init (hinit : Scheduler.init schedule start = .ok scheduler) : scheduler.Ready := by
  obtain ⟨minInterval, henough, hpos, hle, hjobs⟩ := init_cases hinit
  constructor
  · have hnames : scheduler.jobs.map ScheduledTask.name = schedule.items.map Prod.fst := by
      rw [hjobs]
      refine List.ext_getElem (by simp [Scheduler.spaced]) fun i _ _ => ?_
      simp [Scheduler.spaced, ScheduledTask.init]
    rw [hnames]
    exact schedule.nodup
  · intro job hjob
    rw [hjobs, Scheduler.spaced, List.mem_mapIdx] at hjob
    obtain ⟨i, hi, rfl⟩ := hjob
    rw [List.getElem_map]
    have hinterval := hle _ (List.getElem_mem (by simpa using hi))
    constructor
    · exact lt_of_lt_of_le (by omega) hinterval
    · exact le_rfl

theorem nodup_offsets (hinit : Scheduler.init schedule start = .ok scheduler) :
    (scheduler.jobs.map ScheduledTask.offset).Nodup := by
  obtain ⟨minInterval, henough, hpos, -, hjobs⟩ := init_cases hinit
  rw [hjobs, List.Nodup, List.pairwise_iff_getElem]
  intro i j hi hj hlt
  rw [List.getElem_map, List.getElem_map]
  simp only [Scheduler.spaced, List.getElem_mapIdx]
  exact (offset_lt_offset henough hpos hlt).ne

theorem offset_lt_interval (hinit : Scheduler.init schedule start = .ok scheduler) :
    ∀ job ∈ scheduler.jobs, ∀ other ∈ scheduler.jobs,
      0 ≤ job.offset ∧ job.offset < other.interval := by
  obtain ⟨minInterval, henough, -, hle, hjobs⟩ := init_cases hinit
  intro job hjob other hother
  rw [hjobs, Scheduler.spaced, List.mem_mapIdx] at hjob hother
  obtain ⟨i, hi, rfl⟩ := hjob
  obtain ⟨j, hj, rfl⟩ := hother
  rw [List.length_map] at hi hj
  obtain ⟨hnonneg, hlt⟩ := offset_lt_minInterval henough hi
  refine ⟨hnonneg, hlt.trans_le ?_⟩
  rw [List.getElem_map]
  exact hle _ (List.getElem_mem hj)

/-- What one question hands out: each job that was due, with its next target within one
interval of the question. -/
theorem handedOut_of_ready (hready : scheduler.Ready) {time : ℚ} :
    ∀ job ∈ (scheduler.getAndMarkPending time).1,
      ∃ before ∈ scheduler.jobs, job = before.markRun (time - scheduler.globalStart) ∧
        (before.nextRun : ℚ) ≤ time - scheduler.globalStart ∧
        time - scheduler.globalStart < job.nextRun ∧
        (job.nextRun : ℚ) ≤ time - scheduler.globalStart + job.interval := by
  intro job hjob
  rw [Scheduler.toRun_getAndMarkPending] at hjob
  obtain ⟨before, hbefore, rfl⟩ := List.mem_map.mp hjob
  obtain ⟨hmem, hdue⟩ := List.mem_filter.mp hbefore
  obtain ⟨hlt, hle⟩ := (hready.placed before hmem).nextRun_markRun (of_decide_eq_true hdue)
  exact ⟨before, hmem, rfl, of_decide_eq_true hdue, hlt, hle⟩

theorem once_of_ready (hready : scheduler.Ready) (times : List ℚ)
    {job : ScheduledTask Data} (hjob : job ∈ scheduler.jobs) (k : ℤ) :
    ((handOuts job.name (asks scheduler times)).filter fun time =>
      instant (job.interval : ℚ) job.offset k ≤ time ∧
        time < instant (job.interval : ℚ) job.offset (k + 1)).length ≤ 1 := by
  have hplaced := hready.placed job hjob
  rw [hready.handOuts_eq hjob]
  set runs := job.runTimes (times.map (· - scheduler.globalStart))
  have hperiods : (runs.map job.periodOf).Pairwise (· < ·) :=
    (hplaced.periods_runTimes _).of_cons
  have hfilter : (runs.filter fun time => instant (job.interval : ℚ) job.offset k ≤ time ∧
      time < instant (job.interval : ℚ) job.offset (k + 1)) =
        runs.filter ((fun period => period == k) ∘ job.periodOf) := by
    refine List.filter_congr fun time _ => ?_
    exact decide_eq_decide.mpr (periodAt_eq_iff hplaced.interval_cast_pos).symm
  calc
    _ = ((runs.map job.periodOf).filter fun period => period == k).length := by
      rw [hfilter, List.filter_map, List.length_map]
    _ = (runs.map job.periodOf).count k := List.countP_eq_length_filter.symm
    _ ≤ 1 := List.nodup_iff_count.mp (hperiods.imp fun h => h.ne) k

/-- Whatever the times of the questions: each job runs at most once in a period of its
grid and only from its target on, its next target is the first instant of the grid behind
the run, and no target moves backwards.  The offsets are different and below every
interval. -/
theorem runs_once_per_period (hinit : Scheduler.init schedule start = .ok scheduler)
    (times : List ℚ) :
    (scheduler.jobs.map ScheduledTask.offset).Nodup ∧
      (∀ job ∈ scheduler.jobs, ∀ other ∈ scheduler.jobs,
        0 ≤ job.offset ∧ job.offset < other.interval) ∧
      (∀ job ∈ scheduler.jobs,
        (∀ k : ℤ, ((handOuts job.name (asks scheduler times)).filter fun time =>
          instant (job.interval : ℚ) job.offset k ≤ time ∧
            time < instant (job.interval : ℚ) job.offset (k + 1)).length ≤ 1) ∧
        (job.nextRun :: targets job.name (asks scheduler times)).Pairwise (· ≤ ·)) ∧
      ∀ ask ∈ asks scheduler times, ∀ job ∈ ask.toRun,
        ∃ before ∈ ask.before, job = before.markRun ask.relativeTime ∧
          (before.nextRun : ℚ) ≤ ask.relativeTime ∧
          ask.relativeTime < job.nextRun ∧
          (job.nextRun : ℚ) ≤ ask.relativeTime + job.interval := by
  have hready := ready_init hinit
  refine ⟨nodup_offsets hinit, offset_lt_interval hinit, fun job hjob => ⟨?_, ?_⟩, ?_⟩
  · exact once_of_ready hready times hjob
  · rw [hready.targets_eq hjob]
    exact (hready.placed job hjob).sorted_nextRuns _
  · intro ask hask
    obtain ⟨state, time, hstate, rfl⟩ := hready.asks times ask hask
    exact handedOut_of_ready hstate

def twoTasks : Schedule Unit where
  items := [("cleanup", ⟨4, ()⟩), ("metrics", ⟨6, ()⟩)]
  nodup := by decide

theorem twoTasks_run_once : ∃ scheduler, Scheduler.init twoTasks 0 = .ok scheduler ∧
    (scheduler.jobs.map ScheduledTask.offset).Nodup ∧
      ∀ job ∈ scheduler.jobs,
        (job.nextRun :: targets job.name (asks scheduler [5, 6, 11, 30])).Pairwise (· ≤ ·) := by
  have hinit : Scheduler.init twoTasks 0 = .ok _ := rfl
  have ⟨hoffsets, _, hjobs, _⟩ := runs_once_per_period hinit [5, 6, 11, 30]
  refine ⟨_, hinit, ?_⟩
  exact ⟨hoffsets, fun job hjob => (hjobs job hjob).2⟩

end Forail.Periodic
