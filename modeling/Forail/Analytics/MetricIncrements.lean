import Forail.Analytics.SubsystemMetrics
import Mathlib.Data.Fintype.Basic

/-!
# Increments in Redis and in the processes

As long as no pipeline fails that holds increments of a metric, its value in Redis and its
unsaved values add up to all increments.
-/

namespace Forail.SubsystemMetrics

variable {field : Field} {metrics metrics' : List Metric} {metric metric' : Metric}
  {change : Change}

/-! ## Metrics -/

theorem Metric.change_spec (hchange : metric.change change = some metric') :
    metric'.field = metric.field ∧
      metric'.unsaved field = metric.unsaved field + metric.incremented field change := by
  cases change with
  | inc value =>
    cases metric with
    | counter metric =>
      cases hchange
      exact ⟨rfl, unsaved_inc field metric value⟩
    | gauge metric =>
      cases hchange
      exact ⟨rfl, (add_zero 0).symm⟩
    | histogram metric =>
      cases hchange
      exact ⟨rfl, (add_zero _).symm⟩
  | observe value =>
    cases metric with
    | counter metric => cases hchange
    | gauge metric => cases hchange
    | histogram metric =>
      cases hchange
      exact ⟨rfl, unsaved_observe field metric value⟩

theorem Metric.unsaved_storeValue (metric : Metric) :
    metric.storeValue.1.unsaved field + queued field metric.storeValue.2 =
      metric.unsaved field := by
  cases metric with
  | counter metric => exact SubsystemMetrics.unsaved_storeValue field metric
  | gauge metric =>
    rw [Metric.storeValue, BaseM.storeSet]
    split <;> simp [Metric.unsaved, queued, Command.increment]
  | histogram metric => exact unsaved_storeHistogram field metric

theorem unsaved_changeField {name : String}
    (hchange : changeField name change metrics = some metrics') :
    unsaved field metrics' = unsaved field metrics + incremented field name change metrics := by
  induction metrics generalizing metrics' with
  | nil => cases hchange
  | cons metric metrics ih =>
    rw [changeField] at hchange
    by_cases hname : metric.field = .metric name
    · rw [if_pos hname] at hchange
      obtain ⟨metric', hmetric, rfl⟩ := Option.map_eq_some_iff.mp hchange
      have hspec : metric'.unsaved field = _ := (Metric.change_spec hmetric).2
      simp only [unsaved, incremented, List.map_cons, List.sum_cons, List.find?_cons_of_pos,
        hname, decide_true, Option.map_some, Option.getD_some, hspec]
      ring
    · rw [if_neg hname] at hchange
      obtain ⟨rest, hrest, rfl⟩ := Option.map_eq_some_iff.mp hchange
      have hrest' := ih hrest
      simp only [unsaved, incremented, List.map_cons, List.sum_cons] at hrest' ⊢
      rw [List.find?_cons_of_neg (by simpa using hname)]
      linear_combination hrest'

theorem unsaved_incField (name : String) (value : ℚ) (metrics : List Metric) :
    unsaved field (incField name value metrics) =
      unsaved field metrics + incremented field name (.inc value) metrics := by
  rw [incField]
  cases hchange : changeField name (.inc value) metrics with
  | some metrics' => exact unsaved_changeField hchange
  | none =>
    have hfind : metrics.find? (·.field = .metric name) = none := by
      induction metrics with
      | nil => rfl
      | cons metric metrics ih =>
        rw [changeField] at hchange
        split at hchange
        · cases metric <;> cases hchange
        · next hname =>
          rw [List.find?_cons_of_neg (by simpa using hname)]
          exact ih (Option.map_eq_none_iff.mp hchange)
    rw [incremented, hfind]
    exact (add_zero _).symm

theorem unsaved_countExecution (seconds : ℚ) (sendSeconds : Option ℚ) (metrics : List Metric) :
    unsaved field (countExecution seconds sendSeconds metrics) =
      unsaved field metrics + executionIncremented field seconds sendSeconds metrics := by
  cases sendSeconds with
  | none =>
    simp only [countExecution, executionIncremented, Option.map_none, Option.getD_none,
      unsaved_incField]
    ring
  | some sendSeconds =>
    simp only [countExecution, executionIncremented, Option.map_some, Option.getD_some,
      unsaved_incField]
    ring

/-! ## Metrics that count in a field -/

/-- Counters that were not changed count nothing, and no other kind of metric has the field. -/
def Metric.Counts (field : Field) : Metric → Prop
  | .counter metric => metric.Idle
  | .gauge metric => metric.field ≠ field
  | .histogram metric => metric.Idle

def Command.Keeps (field : Field) : Command → Prop
  | .hincrby _ _ => True
  | .hset other _ => other ≠ field

theorem apply_keeps {commands : List Command} (hkeeps : ∀ command ∈ commands, command.Keeps field)
    (hash : Field → ℚ) :
    commands.foldl Command.apply hash field = hash field + queued field commands := by
  induction commands generalizing hash with
  | nil => exact (add_zero _).symm
  | cons command commands ih =>
    obtain ⟨hcommand, hcommands⟩ := List.forall_mem_cons.mp hkeeps
    have hfirst : command.apply hash field = hash field + command.increment field := by
      cases command with
      | hincrby other value =>
        rw [Command.apply, Command.increment, Function.update_apply]
        by_cases hsame : other = field
        · subst hsame
          rw [if_pos rfl, if_pos rfl]
        · rw [if_neg (Ne.symm hsame), if_neg hsame, add_zero]
      | hset other value =>
        rw [Command.apply, Command.increment, Function.update_of_ne (Ne.symm hcommand), add_zero]
    rw [List.foldl_cons, ih hcommands, hfirst, queued, queued, List.map_cons, List.sum_cons,
      add_assoc]

theorem Metric.Counts.of_change (hcounts : metric.Counts field)
    (hchange : metric.change change = some metric') : metric'.Counts field := by
  cases change with
  | inc value =>
    cases metric with
    | counter metric =>
      cases hchange
      exact idle_inc metric value
    | gauge metric =>
      cases hchange
      exact hcounts
    | histogram metric =>
      cases hchange
      exact ⟨hcounts.keys, hcounts.sum, hcounts.inf⟩
  | observe value =>
    cases metric with
    | counter metric => cases hchange
    | gauge metric => cases hchange
    | histogram metric =>
      cases hchange
      exact hcounts.observe value

theorem counts_changeField {name : String} (hcounts : ∀ metric ∈ metrics, metric.Counts field)
    (hchange : changeField name change metrics = some metrics') :
    ∀ metric ∈ metrics', metric.Counts field := by
  induction metrics generalizing metrics' with
  | nil => cases hchange
  | cons metric metrics ih =>
    obtain ⟨hmetric, hmetrics⟩ := List.forall_mem_cons.mp hcounts
    rw [changeField] at hchange
    split at hchange
    · obtain ⟨metric', hmetric', rfl⟩ := Option.map_eq_some_iff.mp hchange
      exact List.forall_mem_cons.mpr ⟨hmetric.of_change hmetric', hmetrics⟩
    · obtain ⟨rest, hrest, rfl⟩ := Option.map_eq_some_iff.mp hchange
      exact List.forall_mem_cons.mpr ⟨hmetric, ih hmetrics hrest⟩

theorem counts_incField (hcounts : ∀ metric ∈ metrics, metric.Counts field) (name : String)
    (value : ℚ) : ∀ metric ∈ incField name value metrics, metric.Counts field := by
  rw [incField]
  cases hchange : changeField name (.inc value) metrics with
  | none => exact hcounts
  | some metrics' => exact counts_changeField hcounts hchange

theorem counts_countExecution (hcounts : ∀ metric ∈ metrics, metric.Counts field) (seconds : ℚ)
    (sendSeconds : Option ℚ) :
    ∀ metric ∈ countExecution seconds sendSeconds metrics, metric.Counts field := by
  have hcounted := counts_incField (counts_incField hcounts
    "subsystem_metrics_pipe_execute_seconds" seconds) "subsystem_metrics_pipe_execute_calls" 1
  cases sendSeconds with
  | none => exact hcounted
  | some sendSeconds => exact counts_incField hcounted _ sendSeconds

theorem keeps_storeValue (metric : BaseM) : ∀ command ∈ metric.storeValue.2, command.Keeps field := by
  rw [BaseM.storeValue]
  split
  · exact List.forall_mem_singleton.mpr trivial
  · exact fun command hcommand => absurd hcommand List.not_mem_nil

theorem keeps_storeKeys (buckets : List ℚ) (keys : ℚ → BaseM) :
    ∀ command ∈ (HistogramM.storeKeys buckets keys).2, command.Keeps field := by
  induction buckets generalizing keys with
  | nil => exact nofun
  | cons bound buckets ih =>
    exact List.forall_mem_append.mpr ⟨keeps_storeValue (keys bound), ih _⟩

theorem Metric.Counts.storeValue (hcounts : metric.Counts field) :
    metric.storeValue.1.Counts field ∧ metric.storeValue.1.unsaved field = 0 ∧
      ∀ command ∈ metric.storeValue.2, command.Keeps field := by
  cases metric with
  | counter metric =>
    obtain ⟨hzero, hidle⟩ := BaseM.Idle.storeValue hcounts
    exact ⟨hidle, unsaved_of_zero field hzero, keeps_storeValue metric⟩
  | gauge metric =>
    rw [Metric.storeValue, BaseM.storeSet]
    split
    · exact ⟨hcounts, rfl, List.forall_mem_singleton.mpr hcounts⟩
    · exact ⟨hcounts, rfl, nofun⟩
  | histogram metric =>
    obtain ⟨hzero, hidle⟩ := HistogramM.Idle.storeValue field hcounts
    refine ⟨hidle, hzero, List.forall_mem_append.mpr ⟨List.forall_mem_append.mpr ⟨?_, ?_⟩, ?_⟩⟩
    · exact keeps_storeKeys _ _
    · exact keeps_storeValue _
    · exact keeps_storeValue _

theorem storeValue_metrics (hcounts : ∀ metric ∈ metrics, metric.Counts field) :
    (∀ metric ∈ metrics.map fun metric => metric.storeValue.1, metric.Counts field) ∧
      (∀ command ∈ metrics.flatMap fun metric => metric.storeValue.2, command.Keeps field) ∧
      unsaved field (metrics.map fun metric => metric.storeValue.1) = 0 ∧
      queued field (metrics.flatMap fun metric => metric.storeValue.2) = unsaved field metrics := by
  induction metrics with
  | nil => simp [unsaved, queued]
  | cons metric metrics ih =>
    obtain ⟨hmetric, hmetrics⟩ := List.forall_mem_cons.mp hcounts
    obtain ⟨hcounts', hzero, hkeeps⟩ := hmetric.storeValue
    obtain ⟨hcounts'', hkeeps', hzeros, hqueued⟩ := ih hmetrics
    have hstored : _ = metric.unsaved field := Metric.unsaved_storeValue metric
    refine ⟨List.forall_mem_cons.mpr ⟨hcounts', hcounts''⟩,
      List.forall_mem_append.mpr ⟨hkeeps, hkeeps'⟩, ?_, ?_⟩
    · rw [List.map_cons, unsaved, List.map_cons, List.sum_cons, hzero, zero_add]
      exact hzeros
    · rw [List.flatMap_cons, queued_append, hqueued, unsaved, unsaved, List.map_cons,
        List.sum_cons, ← hstored, hzero, zero_add]

/-! ## Processes -/

/-- The metrics count in the field, and nothing of it is left in the pipeline. -/
structure Settled (field : Field) (process : Metrics) : Prop where
  counts : ∀ metric ∈ process.metrics, metric.Counts field
  keeps : ∀ command ∈ process.pipe, command.Keeps field
  queued : queued field process.pipe = 0

theorem Settled.call {process process' : Metrics} {call : Call} {executes : Bool}
    (hsettled : Settled field process) (hcall : process.call call = some (process', executes)) :
    Settled field process' ∧ unsaved field process'.metrics =
      unsaved field process.metrics + process.incremented field call := by
  cases call with
  | pipeExecute =>
    cases hcall
    exact ⟨hsettled, (add_zero _).symm⟩
  | change name change =>
    rw [Metrics.call] at hcall
    split at hcall
    · next hzero =>
      subst hzero
      cases hcall
      refine ⟨hsettled, ?_⟩
      have hnothing : ∀ metric : Metric, metric.incremented field (.inc 0) = 0 := by
        intro metric
        cases metric <;> simp [Metric.incremented]
      rw [Metrics.incremented, incremented]
      cases process.metrics.find? (·.field = .metric name) with
      | none => exact (add_zero _).symm
      | some metric => rw [Option.map_some, Option.getD_some, hnothing, add_zero]
    · obtain ⟨metrics, hchange, hsame⟩ := Option.map_eq_some_iff.mp hcall
      cases hsame
      exact ⟨⟨counts_changeField hsettled.counts hchange, hsettled.keeps, hsettled.queued⟩,
        unsaved_changeField hchange⟩

theorem Settled.pipeExecute {process : Metrics} (hsettled : Settled field process)
    (hfield : field ≠ .metric "send_metrics_time") (outcome : Outcome) (hash : Field → ℚ)
    (hcareful : ∀ keepsCommands, outcome = .failed keepsCommands →
      process.metricsHaveChanged = true → unsaved field process.metrics = 0) :
    Settled field (process.pipeExecute outcome hash).2 ∧
      (process.pipeExecute outcome hash).1 field +
          unsaved field (process.pipeExecute outcome hash).2.metrics =
        hash field + unsaved field process.metrics + process.executionIncremented field outcome := by
  obtain ⟨hcounts, hkeeps, hzero, hqueued⟩ := storeValue_metrics hsettled.counts
  have hpipe : ∀ command ∈ process.pipe ++ process.metrics.flatMap fun metric =>
      metric.storeValue.2, command.Keeps field := List.forall_mem_append.mpr ⟨hsettled.keeps, hkeeps⟩
  have hsum := queued_append field process.pipe
    (process.metrics.flatMap fun metric => metric.storeValue.2)
  rw [hsettled.queued, hqueued, zero_add] at hsum
  rw [Metrics.pipeExecute]
  cases hchanged : process.metricsHaveChanged with
  | false =>
    refine ⟨hsettled, ?_⟩
    cases outcome <;> simp [Metrics.executionIncremented, hchanged]
  | true =>
    rw [if_pos rfl]
    cases outcome with
    | failed keepsCommands =>
      have hnothing := hcareful keepsCommands rfl hchanged
      refine ⟨⟨hcounts, ?_, ?_⟩, ?_⟩
      · cases keepsCommands with
        | false => exact nofun
        | true => exact hpipe
      · cases keepsCommands with
        | false => rfl
        | true => exact hsum.trans hnothing
      · rw [hnothing, Metrics.executionIncremented, add_zero]
        exact congrArg _ hzero
    | saved seconds sendMetricsTime sendSeconds =>
      refine ⟨⟨counts_countExecution hcounts seconds sendSeconds, nofun, rfl⟩, ?_⟩
      have hsaved := apply_keeps hpipe hash
      have htime : ∀ saved : Field → ℚ, (sendMetricsTime.map fun time =>
          Function.update saved (.metric "send_metrics_time") time).getD saved field =
          saved field := by
        intro saved
        cases sendMetricsTime with
        | none => rfl
        | some time => exact Function.update_of_ne hfield time saved
      rw [Metrics.executionIncremented, if_pos hchanged]
      dsimp only
      rw [htime, hsaved, hsum, unsaved_countExecution, hzero, zero_add]

/-! ## Runs -/

variable {P : Type*} [DecidableEq P]

/-- An execution that fails finds no increments of the metric. -/
def Careful (field : Field) (system : System P) (event : Event P) : Prop :=
  ∀ keepsCommands process, event.outcome = .failed keepsCommands →
    (system.processes event.process).call event.call = some (process, true) →
    process.metricsHaveChanged = true → unsaved field process.metrics = 0

def CarefulRun (field : Field) : System P → List (Event P) → Prop
  | _, [] => True
  | system, event :: events => Careful field system event ∧ CarefulRun field (system.step event) events

def added (field : Field) : System P → List (Event P) → ℚ
  | _, [] => 0
  | system, event :: events =>
      system.incremented field event + added field (system.step event) events

variable [Fintype P] {system : System P}

theorem total_update (hash : Field → ℚ) (process : P) (metrics : Metrics) :
    (⟨hash, Function.update system.processes process metrics⟩ : System P).total field +
        (system.hash field + unsaved field (system.processes process).metrics) =
      system.total field + (hash field + unsaved field metrics.metrics) := by
  have hsum := sum_update (Finset.mem_univ process)
    (fun metrics : Metrics => unsaved field metrics.metrics) system.processes metrics
  rw [System.total, System.total]
  linear_combination hsum

theorem total_step (hsettled : ∀ process, Settled field (system.processes process))
    (hfield : field ≠ .metric "send_metrics_time") (event : Event P)
    (hcareful : Careful field system event) :
    (∀ process, Settled field ((system.step event).processes process)) ∧
      (system.step event).total field = system.total field + system.incremented field event := by
  have hupdate : ∀ {metrics}, Settled field metrics → ∀ process, Settled field
      (Function.update system.processes event.process metrics process) := by
    intro metrics hmetrics process
    rw [Function.update_apply]
    split
    · exact hmetrics
    · exact hsettled process
  rw [System.step, System.incremented]
  cases hcall : (system.processes event.process).call event.call with
  | none => exact ⟨hsettled, (add_zero _).symm⟩
  | some called =>
    obtain ⟨process, executes⟩ := called
    obtain ⟨hsettled', hadded⟩ := (hsettled event.process).call hcall
    cases executes with
    | false =>
      refine ⟨hupdate hsettled', ?_⟩
      have htotal : _ = system.total field + _ := total_update system.hash event.process process
      simp only [Bool.false_eq_true, if_false]
      linear_combination htotal + hadded
    | true =>
      obtain ⟨hsettled'', hmoved⟩ := hsettled'.pipeExecute hfield event.outcome system.hash
        fun keepsCommands hfailed => hcareful keepsCommands process hfailed hcall
      refine ⟨hupdate hsettled'', ?_⟩
      have htotal : _ = system.total field + _ := total_update
        (process.pipeExecute event.outcome system.hash).1 event.process
        (process.pipeExecute event.outcome system.hash).2
      simp only [if_true]
      linear_combination htotal + hmoved + hadded

/-- In a run without such executions, Redis and the processes have all increments. -/
theorem increments_kept (field : Field) (start : System P) (events : List (Event P))
    (hstart : ∀ process, Settled field (start.processes process))
    (hfield : field ≠ .metric "send_metrics_time") (hcareful : CarefulRun field start events) :
    (events.foldl System.step start).total field =
      start.total field + added field start events := by
  induction events generalizing start with
  | nil => exact (add_zero _).symm
  | cons event events ih =>
    obtain ⟨hsettled, htotal⟩ := total_step hstart hfield event hcareful.1
    rw [List.foldl_cons, ih _ hsettled hcareful.2, htotal, added, add_assoc]

def oneCounter : System Unit where
  hash := fun _ => 0
  processes := fun _ =>
    { metrics := [.counter { field := .metric "events" }]
      metricsHaveChanged := true
      autoPipeExecute := false
      pipe := [] }

def countEvent : Event Unit := ⟨(), .change "events" (.inc 1), .saved 0 none none⟩

theorem settled_oneCounter (process : Unit) :
    Settled (.metric "events") (oneCounter.processes process) where
  counts := List.forall_mem_singleton.mpr fun _ => rfl
  keeps := nofun
  queued := rfl

theorem increments_kept_oneCounter :
    (([countEvent, ⟨(), .pipeExecute, .saved 0 none none⟩] : List (Event Unit)).foldl System.step
        oneCounter).total (.metric "events") =
      oneCounter.total (.metric "events") +
        added (.metric "events") oneCounter [countEvent, ⟨(), .pipeExecute, .saved 0 none none⟩] :=
  increments_kept _ oneCounter _ settled_oneCounter (by decide) ⟨nofun, nofun, trivial⟩

theorem increment_lost : ¬ ∀ events : List (Event Unit),
    (events.foldl System.step oneCounter).total (.metric "events") =
      oneCounter.total (.metric "events") + added (.metric "events") oneCounter events := by
  intro hkept
  have hlost : (([countEvent, ⟨(), .pipeExecute, .failed false⟩] : List (Event Unit)).foldl
      System.step oneCounter).total (.metric "events") = 0 := by decide +kernel
  have hadded : oneCounter.total (.metric "events") + added (.metric "events") oneCounter
      [countEvent, ⟨(), .pipeExecute, .failed false⟩] = 1 := by
    decide +kernel
  have hsame := hkept [countEvent, ⟨(), .pipeExecute, .failed false⟩]
  rw [hlost, hadded] at hsame
  exact zero_ne_one hsame

end Forail.SubsystemMetrics
