import Mathlib.Algebra.BigOperators.Group.Finset.Piecewise
import Mathlib.Algebra.Field.Rat
import Mathlib.Algebra.Order.Ring.Unbundled.Rat
import Mathlib.Data.Finset.Dedup
import Mathlib.Tactic.LinearCombination
import Mathlib.Tactic.Ring

/-!
# Subsystem metrics

Each process counts in its own objects.  From time to time it queues what it counted in a
Redis pipeline, sets the objects to zero, and executes the pipeline.
-/

namespace Forail.SubsystemMetrics

inductive Field
  | metric (name : String)
  | bucket (name : String) (bound : ℚ)
  | inf (name : String)
  | sum (name : String)
  deriving DecidableEq

structure BaseM where
  field : Field
  currentValue : ℚ := 0
  metricHasChanged : Bool := false

/-- What a pipeline holds.  `hincrby` and `hincrbyfloat` do the same to exact numbers. -/
inductive Command
  | hincrby (field : Field) (value : ℚ)
  | hset (field : Field) (value : ℚ)

def Command.apply (hash : Field → ℚ) : Command → Field → ℚ
  | .hincrby field value => Function.update hash field (hash field + value)
  | .hset field value => Function.update hash field value

namespace BaseM

variable (metric : BaseM)

def inc (value : ℚ) : BaseM :=
  { metric with currentValue := metric.currentValue + value, metricHasChanged := true }

def storeValue : BaseM × List Command :=
  if metric.metricHasChanged then
    ({ metric with currentValue := 0, metricHasChanged := false },
      [.hincrby metric.field metric.currentValue])
  else (metric, [])

def storeSet : BaseM × List Command :=
  if metric.metricHasChanged then
    ({ metric with metricHasChanged := false }, [.hset metric.field metric.currentValue])
  else (metric, [])

end BaseM

/-! ## Histograms -/

structure HistogramM where
  base : BaseM
  buckets : List ℚ
  bucketsToKeys : ℚ → BaseM
  inf : BaseM
  sum : BaseM

namespace HistogramM

def new (name : String) (buckets : List ℚ) : HistogramM where
  base := { field := .metric name }
  buckets := buckets
  bucketsToKeys := fun bound => { field := .bucket name bound }
  inf := { field := .inf name }
  sum := { field := .sum name }

variable (histogram : HistogramM)

/-- The first bucket that is not exceeded counts the value. -/
def observe (value : ℚ) : HistogramM :=
  { histogram with
    bucketsToKeys := match histogram.buckets.find? (value ≤ ·) with
      | some bound => Function.update histogram.bucketsToKeys bound
          ((histogram.bucketsToKeys bound).inc 1)
      | none => histogram.bucketsToKeys
    sum := histogram.sum.inc value
    inf := histogram.inf.inc 1 }

def storeKeys : List ℚ → (ℚ → BaseM) → (ℚ → BaseM) × List Command
  | [], keys => (keys, [])
  | bound :: buckets, keys =>
      let stored := (keys bound).storeValue
      let rest := storeKeys buckets (Function.update keys bound stored.1)
      (rest.1, stored.2 ++ rest.2)

def storeValue : HistogramM × List Command :=
  let keys := storeKeys histogram.buckets histogram.bucketsToKeys
  ({ histogram with
      bucketsToKeys := keys.1
      sum := histogram.sum.storeValue.1
      inf := histogram.inf.storeValue.1 },
    keys.2 ++ histogram.sum.storeValue.2 ++ histogram.inf.storeValue.2)

end HistogramM

/-! ## The metrics of a process -/

inductive Metric
  /-- `IntM` and `FloatM` -/
  | counter (metric : BaseM)
  /-- `SetIntM` and `SetFloatM` -/
  | gauge (metric : BaseM)
  | histogram (metric : HistogramM)

inductive Change
  | inc (value : ℚ)
  | observe (value : ℚ)
  deriving DecidableEq

namespace Metric

def field : Metric → Field
  | .counter metric | .gauge metric => metric.field
  | .histogram metric => metric.base.field

def change : Change → Metric → Option Metric
  | .inc value, .counter metric => some (.counter (metric.inc value))
  | .inc value, .gauge metric => some (.gauge (metric.inc value))
  | .inc value, .histogram metric => some (.histogram { metric with base := metric.base.inc value })
  | .observe value, .histogram metric => some (.histogram (metric.observe value))
  | .observe _, _ => none

def storeValue : Metric → Metric × List Command
  | .counter metric => (.counter metric.storeValue.1, metric.storeValue.2)
  | .gauge metric => (.gauge metric.storeSet.1, metric.storeSet.2)
  | .histogram metric => (.histogram metric.storeValue.1, metric.storeValue.2)

end Metric

def changeField (name : String) (change : Change) : List Metric → Option (List Metric)
  | [] => none
  | metric :: metrics =>
      if metric.field = .metric name then (metric.change change).map (· :: metrics)
      else (changeField name change metrics).map (metric :: ·)

structure Metrics where
  metrics : List Metric
  metricsHaveChanged : Bool
  autoPipeExecute : Bool
  pipe : List Command

/-- What comes of an execution of the pipeline: it fails, where a pipeline without a connection
keeps its commands and another one is reset, or it succeeds.  Then come the seconds it
took, the time at which metrics are sent, and the seconds that this took unless it raises. -/
inductive Outcome
  | failed (keepsCommands : Bool)
  | saved (seconds : ℚ) (sendMetricsTime : Option ℚ) (sendSeconds : Option ℚ)

def incField (name : String) (value : ℚ) (metrics : List Metric) : List Metric :=
  (changeField name (.inc value) metrics).getD metrics

def countExecution (seconds : ℚ) (sendSeconds : Option ℚ) (metrics : List Metric) :
    List Metric :=
  let counted := incField "subsystem_metrics_pipe_execute_calls" 1
    (incField "subsystem_metrics_pipe_execute_seconds" seconds metrics)
  (sendSeconds.map fun seconds =>
    incField "subsystem_metrics_send_metrics_seconds" seconds counted).getD counted

def Metrics.pipeExecute (outcome : Outcome) (hash : Field → ℚ) (process : Metrics) :
    (Field → ℚ) × Metrics :=
  if process.metricsHaveChanged then
    let metrics := process.metrics.map fun metric => metric.storeValue.1
    let pipe := process.pipe ++ process.metrics.flatMap fun metric => metric.storeValue.2
    match outcome with
    | .failed keepsCommands =>
        (hash, { process with metrics, pipe := if keepsCommands then pipe else [] })
    | .saved seconds sendMetricsTime sendSeconds =>
        let saved := pipe.foldl Command.apply hash
        ((sendMetricsTime.map fun time =>
            Function.update saved (.metric "send_metrics_time") time).getD saved,
          { process with
            metrics := countExecution seconds sendSeconds metrics
            metricsHaveChanged := false
            pipe := [] })
  else (hash, process)

inductive Call
  | change (name : String) (change : Change)
  | pipeExecute

def Metrics.call (process : Metrics) : Call → Option (Metrics × Bool)
  | .change name change =>
      if change = .inc 0 then some (process, false)
      else (changeField name change process.metrics).map fun metrics =>
        ({ process with metrics, metricsHaveChanged := true }, process.autoPipeExecute)
  | .pipeExecute => some (process, true)

structure System (P : Type*) where
  hash : Field → ℚ
  processes : P → Metrics

/-- A call in one process, with the outcome of `pipe_execute` where it is called. -/
structure Event (P : Type*) where
  process : P
  call : Call
  outcome : Outcome

variable {P : Type*} [DecidableEq P]

def System.step (system : System P) (event : Event P) : System P :=
  match (system.processes event.process).call event.call with
  | none => system
  | some (process, false) =>
      { system with processes := Function.update system.processes event.process process }
  | some (process, true) =>
      let executed := process.pipeExecute event.outcome system.hash
      ⟨executed.1, Function.update system.processes event.process executed.2⟩

/-! ## Increments

`field` is the field of an `IntM` or a `FloatM`, on its own or in a histogram. -/

variable (field : Field)

def Command.increment : Command → ℚ
  | .hincrby other value => if other = field then value else 0
  | .hset _ _ => 0

def queued (commands : List Command) : ℚ := (commands.map (Command.increment field)).sum

def BaseM.unsaved (metric : BaseM) : ℚ :=
  if metric.field = field then metric.currentValue else 0

def HistogramM.unsaved (histogram : HistogramM) : ℚ :=
  ∑ bound ∈ histogram.buckets.toFinset, (histogram.bucketsToKeys bound).unsaved field +
    histogram.sum.unsaved field + histogram.inf.unsaved field

def Metric.unsaved : Metric → ℚ
  | .counter metric => metric.unsaved field
  | .gauge _ => 0
  | .histogram metric => metric.unsaved field

def unsaved (metrics : List Metric) : ℚ := (metrics.map (Metric.unsaved field)).sum

def HistogramM.observed (value : ℚ) (histogram : HistogramM) : ℚ :=
  (((histogram.buckets.find? (value ≤ ·)).map fun bound =>
      if (histogram.bucketsToKeys bound).field = field then 1 else 0).getD 0) +
    (if histogram.sum.field = field then value else 0) +
    if histogram.inf.field = field then 1 else 0

def Metric.incremented : Change → Metric → ℚ
  | .inc value, .counter metric => if metric.field = field then value else 0
  | .observe value, .histogram metric => metric.observed field value
  | _, _ => 0

def incremented (name : String) (change : Change) (metrics : List Metric) : ℚ :=
  ((metrics.find? (·.field = .metric name)).map (Metric.incremented field change)).getD 0

def executionIncremented (seconds : ℚ) (sendSeconds : Option ℚ) (metrics : List Metric) : ℚ :=
  let counted := incField "subsystem_metrics_pipe_execute_seconds" seconds metrics
  incremented field "subsystem_metrics_pipe_execute_seconds" (.inc seconds) metrics +
    incremented field "subsystem_metrics_pipe_execute_calls" (.inc 1) counted +
    (sendSeconds.map fun seconds => incremented field "subsystem_metrics_send_metrics_seconds"
      (.inc seconds) (incField "subsystem_metrics_pipe_execute_calls" 1 counted)).getD 0

def Metrics.executionIncremented (process : Metrics) : Outcome → ℚ
  | .failed _ => 0
  | .saved seconds _ sendSeconds =>
      if process.metricsHaveChanged then SubsystemMetrics.executionIncremented field seconds
        sendSeconds (process.metrics.map fun metric => metric.storeValue.1)
      else 0

def Metrics.incremented (process : Metrics) : Call → ℚ
  | .change name change => SubsystemMetrics.incremented field name change process.metrics
  | .pipeExecute => 0

def System.incremented (system : System P) (event : Event P) : ℚ :=
  match (system.processes event.process).call event.call with
  | none => 0
  | some (process, executes) => (system.processes event.process).incremented field event.call +
      if executes then process.executionIncremented field event.outcome else 0

def System.total [Fintype P] (system : System P) : ℚ :=
  system.hash field + ∑ process, unsaved field (system.processes process).metrics

/-! ## What a metric keeps -/

theorem unsaved_inc (metric : BaseM) (value : ℚ) : (metric.inc value).unsaved field =
    metric.unsaved field + if metric.field = field then value else 0 := by
  rw [BaseM.unsaved, BaseM.unsaved, BaseM.inc]
  split
  · rfl
  · exact (add_zero 0).symm

theorem unsaved_storeValue (metric : BaseM) : metric.storeValue.1.unsaved field +
    queued field metric.storeValue.2 = metric.unsaved field := by
  rw [BaseM.storeValue]
  split
  · simp [BaseM.unsaved, queued, Command.increment]
  · exact add_zero _

theorem queued_append (commands commands' : List Command) :
    queued field (commands ++ commands') = queued field commands + queued field commands' := by
  rw [queued, List.map_append, List.sum_append]
  rfl

theorem sum_update {A B : Type*} [DecidableEq A] {keys : Finset A} {key : A} (hkey : key ∈ keys)
    (weigh : B → ℚ) (values : A → B) (value : B) :
    ∑ other ∈ keys, weigh (Function.update values key value other) + weigh (values key) =
      ∑ other ∈ keys, weigh (values other) + weigh value := by
  rw [← Finset.add_sum_erase keys _ hkey, ← Finset.add_sum_erase keys _ hkey,
    Function.update_self]
  have hothers : ∑ other ∈ keys.erase key, weigh (Function.update values key value other) =
      ∑ other ∈ keys.erase key, weigh (values other) := by
    refine Finset.sum_congr rfl fun other hother => ?_
    rw [Function.update_of_ne (Finset.ne_of_mem_erase hother)]
  rw [hothers]
  ring

theorem unsaved_observe (histogram : HistogramM) (value : ℚ) :
    (histogram.observe value).unsaved field =
      histogram.unsaved field + histogram.observed field value := by
  rw [HistogramM.unsaved, HistogramM.unsaved, HistogramM.observed, HistogramM.observe]
  dsimp only
  rw [unsaved_inc, unsaved_inc]
  cases hfind : histogram.buckets.find? (value ≤ ·) with
  | none =>
    simp only [Option.map_none, Option.getD_none]
    ring
  | some bound =>
    have hbound : bound ∈ histogram.buckets.toFinset :=
      List.mem_toFinset.mpr (List.mem_of_find?_eq_some hfind)
    have hkeys := sum_update hbound (BaseM.unsaved field) histogram.bucketsToKeys
      ((histogram.bucketsToKeys bound).inc 1)
    rw [unsaved_inc] at hkeys
    simp only [Option.map_some, Option.getD_some]
    linear_combination hkeys

theorem unsaved_storeKeys {bounds : Finset ℚ} {buckets : List ℚ}
    (hbuckets : ∀ bound ∈ buckets, bound ∈ bounds) (keys : ℚ → BaseM) :
    ∑ bound ∈ bounds, ((HistogramM.storeKeys buckets keys).1 bound).unsaved field +
        queued field (HistogramM.storeKeys buckets keys).2 =
      ∑ bound ∈ bounds, (keys bound).unsaved field := by
  induction buckets generalizing keys with
  | nil => exact add_zero _
  | cons bound buckets ih =>
    obtain ⟨hbound, hbuckets⟩ := List.forall_mem_cons.mp hbuckets
    have hrest := ih hbuckets (Function.update keys bound (keys bound).storeValue.1)
    have hkey := sum_update hbound (BaseM.unsaved field) keys (keys bound).storeValue.1
    rw [HistogramM.storeKeys, queued_append]
    linear_combination hrest + hkey + unsaved_storeValue field (keys bound)

theorem unsaved_storeHistogram (histogram : HistogramM) :
    histogram.storeValue.1.unsaved field + queued field histogram.storeValue.2 =
      histogram.unsaved field := by
  have hkeys := unsaved_storeKeys field
    (fun bound (hbound : bound ∈ histogram.buckets) => List.mem_toFinset.mpr hbound)
    histogram.bucketsToKeys
  rw [HistogramM.storeValue, queued_append, queued_append, HistogramM.unsaved, HistogramM.unsaved]
  linear_combination hkeys + unsaved_storeValue field histogram.sum +
    unsaved_storeValue field histogram.inf

/-! ## Idle counters -/

def BaseM.Idle (metric : BaseM) : Prop := metric.metricHasChanged = false → metric.currentValue = 0

structure HistogramM.Idle (histogram : HistogramM) : Prop where
  keys : ∀ bound, (histogram.bucketsToKeys bound).Idle
  sum : histogram.sum.Idle
  inf : histogram.inf.Idle

theorem idle_inc (metric : BaseM) (value : ℚ) : (metric.inc value).Idle := nofun

theorem BaseM.Idle.storeValue {metric : BaseM} (hidle : metric.Idle) :
    metric.storeValue.1.currentValue = 0 ∧ metric.storeValue.1.Idle := by
  rw [BaseM.storeValue]
  split
  · exact ⟨rfl, fun _ => rfl⟩
  · next hchanged =>
    exact ⟨hidle (Bool.not_eq_true _ ▸ hchanged), hidle⟩

theorem unsaved_of_zero {metric : BaseM} (hzero : metric.currentValue = 0) :
    metric.unsaved field = 0 := by
  rw [BaseM.unsaved, hzero, ite_self]

theorem idle_update {keys : ℚ → BaseM} {key : BaseM} (hkeys : ∀ bound, (keys bound).Idle)
    (hkey : key.Idle) (bound other : ℚ) : (Function.update keys bound key other).Idle := by
  rw [Function.update_apply]
  split
  · exact hkey
  · exact hkeys other

theorem HistogramM.Idle.observe {histogram : HistogramM} (hidle : histogram.Idle) (value : ℚ) :
    (histogram.observe value).Idle := by
  refine ⟨fun other => ?_, idle_inc _ _, idle_inc _ _⟩
  rw [HistogramM.observe]
  cases histogram.buckets.find? (value ≤ ·) with
  | none => exact hidle.keys other
  | some bound => exact idle_update hidle.keys (idle_inc _ _) bound other

theorem idle_storeKeys (buckets : List ℚ) {keys : ℚ → BaseM} (hkeys : ∀ bound, (keys bound).Idle) :
    (∀ bound, ((HistogramM.storeKeys buckets keys).1 bound).Idle) ∧
      ∀ bound, bound ∈ buckets ∨ (keys bound).currentValue = 0 →
        ((HistogramM.storeKeys buckets keys).1 bound).currentValue = 0 := by
  induction buckets generalizing keys with
  | nil => exact ⟨hkeys, fun bound hzero => hzero.resolve_left List.not_mem_nil⟩
  | cons bound buckets ih =>
    obtain ⟨hzero, hidle⟩ := (hkeys bound).storeValue
    obtain ⟨hrest, hzeros⟩ := ih (idle_update hkeys hidle bound)
    refine ⟨hrest, fun other hother => hzeros other ?_⟩
    by_cases hsame : other = bound
    · rw [hsame, Function.update_self]
      exact .inr hzero
    · rw [Function.update_of_ne hsame]
      exact hother.imp_left fun hmem => (List.mem_cons.mp hmem).resolve_left hsame

theorem HistogramM.Idle.storeValue {histogram : HistogramM} (hidle : histogram.Idle) :
    histogram.storeValue.1.unsaved field = 0 ∧ histogram.storeValue.1.Idle := by
  obtain ⟨hkeys, hzeros⟩ := idle_storeKeys histogram.buckets hidle.keys
  refine ⟨?_, hkeys, hidle.sum.storeValue.2, hidle.inf.storeValue.2⟩
  rw [HistogramM.storeValue, HistogramM.unsaved, unsaved_of_zero field hidle.sum.storeValue.1,
    unsaved_of_zero field hidle.inf.storeValue.1, add_zero, add_zero]
  exact Finset.sum_eq_zero fun bound hbound =>
    unsaved_of_zero field (hzeros bound (.inl (List.mem_toFinset.mp hbound)))

end Forail.SubsystemMetrics
