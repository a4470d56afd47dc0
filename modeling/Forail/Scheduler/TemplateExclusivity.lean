import Forail.Scheduler.TaskManager

/-!
# Exclusive tasks

Tasks that must not run together share a key: jobs and sliced workflow jobs of
one job template, workflow jobs of one workflow template, updates of one project
or inventory source, and system jobs.  The dependency graph keeps the tasks of
one key apart, except that a plain job does not look for a sliced workflow job
of its template.
-/

namespace Forail.Scheduling

open Forail.UnifiedJobs Forail.Tasks

inductive ExclusiveKey where
  | jobTemplate (template : ℕ)
  | workflowJobTemplate (template : ℕ)
  | project (project : ℕ)
  | inventorySource (source : ℕ)
  | systemJob
  deriving DecidableEq, Repr

/-- The key of a task.  Tasks that may run simultaneously, the children of a
sliced workflow job among them, have none. -/
def exclusiveKey : TaskKind → Option ExclusiveKey
  | .job (some template) _ _ false _ => some (.jobTemplate template)
  | .workflowJob (some template) _ false => some (.workflowJobTemplate template)
  | .workflowJob none (some template) false => some (.jobTemplate template)
  | .projectUpdate project => some (.project project)
  | .inventoryUpdate source _ => some (.inventorySource source)
  | .systemJob => some .systemJob
  | _ => none

def isJob : TaskKind → Bool
  | .job _ _ _ _ _ => true
  | _ => false

def Exclusive (tasks : TaskId → Task) (allTasks : List TaskId) (key : ExclusiveKey) : Prop :=
  ∀ id ∈ allTasks, ∀ other ∈ allTasks, (tasks id).Started → (tasks other).Started →
    exclusiveKey (tasks id).kind = some key → exclusiveKey (tasks other).kind = some key →
    id = other

/-- The call does not start a plain job whose key an active sliced workflow job
has. -/
def Start.Apart (answers : Answers) (allTasks : List TaskId) (key : ExclusiveKey)
    (start : Start) : Prop :=
  isJob start.task.kind = true → exclusiveKey start.task.kind = some key →
    answers.preStart start.id = true →
    ∀ other ∈ allTasks, (start.tasks other).Started →
      isJob (start.tasks other).kind = false →
      exclusiveKey (start.tasks other).kind ≠ some key

instance (answers : Answers) (allTasks : List TaskId) (key : ExclusiveKey) (start : Start) :
    Decidable (start.Apart answers allTasks key) :=
  inferInstanceAs (Decidable (isJob start.task.kind = true →
    exclusiveKey start.task.kind = some key → answers.preStart start.id = true →
    ∀ other ∈ allTasks, (start.tasks other).Started →
      isJob (start.tasks other).kind = false →
      exclusiveKey (start.tasks other).kind ≠ some key))

/-! ## Tasks with a key -/

inductive HasKey : TaskKind → ExclusiveKey → Prop where
  | job {template : ℕ} {project inventory : Option ℕ} {size : JobSize} :
      HasKey (.job (some template) project inventory false size) (.jobTemplate template)
  | slicedJob {template : ℕ} :
      HasKey (.workflowJob none (some template) false) (.jobTemplate template)
  | workflowJob {template : ℕ} {unifiedJobTemplate : Option ℕ} :
      HasKey (.workflowJob (some template) unifiedJobTemplate false)
        (.workflowJobTemplate template)
  | projectUpdate {project : ℕ} : HasKey (.projectUpdate project) (.project project)
  | inventoryUpdate {source : ℕ} {inventory : Option ℕ} :
      HasKey (.inventoryUpdate source inventory) (.inventorySource source)
  | systemJob : HasKey .systemJob .systemJob

variable {kind other : TaskKind} {key : ExclusiveKey} {graph : DependencyGraph}

theorem hasKey_of_exclusiveKey (hkey : exclusiveKey kind = some key) : HasKey kind key := by
  cases kind with
  | job jobTemplate project inventory allowSimultaneous size =>
    cases jobTemplate with
    | none => cases hkey
    | some template =>
      cases allowSimultaneous with
      | true => cases hkey
      | false => exact Option.some.inj hkey ▸ .job
  | workflowJob workflowJobTemplate unifiedJobTemplate allowSimultaneous =>
    cases allowSimultaneous with
    | true => cases workflowJobTemplate <;> cases unifiedJobTemplate <;> cases hkey
    | false =>
      cases workflowJobTemplate with
      | some template => exact Option.some.inj hkey ▸ .workflowJob
      | none =>
        cases unifiedJobTemplate with
        | none => cases hkey
        | some template => exact Option.some.inj hkey ▸ .slicedJob
  | adHocCommand => cases hkey
  | projectUpdate project => exact Option.some.inj hkey ▸ .projectUpdate
  | inventoryUpdate source inventory => exact Option.some.inj hkey ▸ .inventoryUpdate
  | systemJob => exact Option.some.inj hkey ▸ .systemJob

/-- A task of a key is blocked by another one that is marked, unless it is a
plain job and the other one is a sliced workflow job. -/
theorem blocked_of_hasKey (hkind : HasKey kind key) (hother : HasKey other key)
    (hmarked : ∀ jobType id, DependencyGraph.Marks other jobType id →
      (graph.data jobType id).isSome = true) :
    (graph.taskBlockedBy kind).isSome = true ∨ (isJob kind = true ∧ isJob other = false) := by
  cases hkind with
  | @job template project inventory size =>
    cases hother with
    | job =>
      left
      have hmark := hmarked .jobTemplateJobs template ⟨rfl, rfl⟩
      simp [DependencyGraph.taskBlockedBy, DependencyGraph.jobBlockedBy,
        DependencyGraph.getItem, hmark]
    | slicedJob => exact Or.inr ⟨rfl, rfl⟩
  | @slicedJob template =>
    left
    cases hother with
    | job =>
      have hmark := hmarked .jobTemplateJobs template ⟨rfl, rfl⟩
      simp [DependencyGraph.taskBlockedBy, DependencyGraph.workflowJobBlockedBy,
        DependencyGraph.getItem, hmark]
    | slicedJob =>
      have hmark := hmarked .workflowJobTemplatesJobs template ⟨rfl, rfl⟩
      simp [DependencyGraph.taskBlockedBy, DependencyGraph.workflowJobBlockedBy,
        DependencyGraph.getItem, hmark]
  | @workflowJob template unifiedJobTemplate =>
    left
    cases hother
    exact hmarked .workflowJobTemplatesJobs template ⟨rfl, rfl⟩
  | @projectUpdate project =>
    left
    cases hother
    exact hmarked .projectUpdates project ⟨rfl, rfl⟩
  | @inventoryUpdate source inventory =>
    left
    cases hother
    exact hmarked .inventorySourceUpdates source (Or.inr ⟨rfl, rfl⟩)
  | systemJob =>
    left
    cases hother
    exact hmarked .systemJob 0 ⟨rfl, rfl⟩

/-! ## A pass -/

namespace TaskManager

def AllMarked (manager : TaskManager) (allTasks : List TaskId) : Prop :=
  ∀ id ∈ allTasks, (manager.tasks id).Started → ∀ jobType entry,
    DependencyGraph.Marks (manager.tasks id).kind jobType entry →
    (manager.dependencyGraph.data jobType entry).isSome = true

variable {answers : Answers} {manager : TaskManager} {allTasks : List TaskId} {id : TaskId}
  {placed : Task} {fromIdle : Bool}

theorem not_started_of_pending {task : Task} (hpending : task.status = .pending) :
    ¬ task.Started := by
  rw [Task.Started, hpending]
  decide

theorem started_startTask_self :
    ((manager.startTask answers id placed fromIdle).tasks id).Started ↔
      answers.preStart id = true := by
  simp only [startTask, Function.update_self, Task.Started, startedStatus]
  cases answers.preStart id with
  | false => simp
  | true =>
    simp only [if_true, iff_true]
    split <;> decide

theorem kind_startTask_self :
    ((manager.startTask answers id placed fromIdle).tasks id).kind = placed.kind := by
  simp [startTask]

theorem tasks_startTask_of_ne {other : TaskId} (hne : other ≠ id) :
    (manager.startTask answers id placed fromIdle).tasks other = manager.tasks other :=
  Function.update_of_ne hne ..

theorem isSome_processRunningTasks {ids : List TaskId} {jobType : JobType} {entry : ℕ} :
    ((manager.processRunningTasks ids).dependencyGraph.data jobType entry).isSome = true ↔
      (manager.dependencyGraph.data jobType entry).isSome = true ∨
        ∃ id ∈ ids, DependencyGraph.Marks (manager.tasks id).kind jobType entry := by
  induction ids generalizing manager with
  | nil => simp [processRunningTasks]
  | cons id ids ih =>
    have hstep := @ih (manager.processRunningTask id)
    have hmark := @DependencyGraph.isSome_addJob manager.dependencyGraph id jobType entry
      (manager.tasks id).kind
    rw [processRunningTasks, List.foldl_cons]
    simp only [List.mem_cons, exists_eq_or_imp]
    rw [← or_assoc, ← hmark]
    exact hstep

theorem allMarked_countTasks : (manager.countTasks allTasks).AllMarked allTasks := by
  intro id hid hstarted jobType entry hmarks
  rw [tasks_countTasks] at hstarted hmarks
  rw [countTasks, isSome_processRunningTasks]
  exact Or.inr ⟨id, List.mem_filter.mpr ⟨hid, decide_eq_true hstarted⟩, hmarks⟩

theorem allMarked_startTask (hmarked : manager.AllMarked allTasks)
    (hkind : placed.kind = (manager.tasks id).kind) :
    (manager.startTask answers id placed fromIdle).AllMarked allTasks := by
  intro other hother hstarted jobType entry hmarks
  rw [startTask, DependencyGraph.isSome_addJob]
  by_cases hsame : other = id
  · subst hsame
    rw [kind_startTask_self] at hmarks
    exact Or.inr hmarks
  · rw [tasks_startTask_of_ne hsame] at hstarted hmarks
    exact Or.inl (hmarked other hother hstarted jobType entry hmarks)

/-- A start keeps the tasks of a key apart exactly when it is not that of a plain
job beside a sliced workflow job. -/
theorem exclusive_startTask_iff (hmarked : manager.AllMarked allTasks) (hid : id ∈ allTasks)
    (hpending : (manager.tasks id).status = .pending)
    (hfree : manager.jobBlockedBy (manager.tasks id) = false)
    (hkind : placed.kind = (manager.tasks id).kind) :
    Exclusive (manager.startTask answers id placed fromIdle).tasks allTasks key ↔
      Exclusive manager.tasks allTasks key ∧
        Start.Apart answers allTasks key
          ⟨id, placed, fromIdle, manager.tmModels, manager.tasks⟩ := by
  have hne : ∀ other, (manager.tasks other).Started → other ≠ id := by
    intro other hstarted hsame
    rw [hsame] at hstarted
    exact not_started_of_pending hpending hstarted
  have hunblocked : (manager.dependencyGraph.taskBlockedBy placed.kind).isSome = false := by
    rw [hkind]
    exact (Bool.or_eq_false_iff.mp hfree).1
  constructor
  · intro hafter
    constructor
    · intro first hfirst second hsecond hstarted hstarted' hkey hkey'
      have hfirst' := @tasks_startTask_of_ne answers manager id placed fromIdle first
        (hne first hstarted)
      have hsecond' := @tasks_startTask_of_ne answers manager id placed fromIdle second
        (hne second hstarted')
      rw [← hfirst'] at hstarted hkey
      rw [← hsecond'] at hstarted' hkey'
      exact hafter first hfirst second hsecond hstarted hstarted' hkey hkey'
    · intro _ hkey hanswer other hother hstarted _ hotherKey
      have hother' := @tasks_startTask_of_ne answers manager id placed fromIdle other
        (hne other hstarted)
      have hstartedId := (@started_startTask_self answers manager id placed fromIdle).mpr hanswer
      have hkeyId : exclusiveKey
          ((manager.startTask answers id placed fromIdle).tasks id).kind = some key := by
        rw [kind_startTask_self]
        exact hkey
      have hsame := hafter id hid other hother hstartedId (by rw [hother']; exact hstarted)
        hkeyId (by rw [hother']; exact hotherKey)
      exact hne other hstarted hsame.symm
  · intro hbefore
    obtain ⟨hexclusive, hapart⟩ := hbefore
    have hnone : ((manager.startTask answers id placed fromIdle).tasks id).Started →
        exclusiveKey ((manager.startTask answers id placed fromIdle).tasks id).kind =
          some key →
        ∀ other ∈ allTasks, (manager.tasks other).Started →
          exclusiveKey (manager.tasks other).kind ≠ some key := by
      intro hstartedId hkeyId other hother hstarted hotherKey
      rw [started_startTask_self] at hstartedId
      rw [kind_startTask_self] at hkeyId
      cases blocked_of_hasKey (hasKey_of_exclusiveKey hkeyId)
        (hasKey_of_exclusiveKey hotherKey) (hmarked other hother hstarted) with
      | inl hblocked =>
        rw [hunblocked] at hblocked
        cases hblocked
      | inr hplain =>
        exact hapart hplain.1 hkeyId hstartedId other hother hstarted hplain.2 hotherKey
    intro first hfirst second hsecond hstarted hstarted' hkey hkey'
    by_cases hfirstId : first = id
    · by_cases hsecondId : second = id
      · rw [hfirstId, hsecondId]
      · subst hfirstId
        rw [tasks_startTask_of_ne hsecondId] at hstarted' hkey'
        exact absurd hkey' (hnone hstarted hkey second hsecond hstarted')
    · rw [tasks_startTask_of_ne hfirstId] at hstarted hkey
      by_cases hsecondId : second = id
      · subst hsecondId
        exact absurd hkey (hnone hstarted' hkey' first hfirst hstarted)
      · rw [tasks_startTask_of_ne hsecondId] at hstarted' hkey'
        exact hexclusive first hfirst second hsecond hstarted hstarted' hkey hkey'

theorem exclusive_congr {tasks tasks' : TaskId → Task}
    (hstarted : ∀ id, (tasks' id).Started ∨ (tasks id).Started → tasks' id = tasks id) :
    Exclusive tasks' allTasks key ↔ Exclusive tasks allTasks key := by
  constructor
  · intro hexclusive first hfirst second hsecond hactive hactive'
    have hsame := hstarted first (Or.inr hactive)
    have hsame' := hstarted second (Or.inr hactive')
    rw [← hsame] at hactive ⊢
    rw [← hsame'] at hactive' ⊢
    exact hexclusive first hfirst second hsecond hactive hactive'
  · intro hexclusive first hfirst second hsecond hactive hactive'
    have hsame := hstarted first (Or.inl hactive)
    have hsame' := hstarted second (Or.inl hactive')
    rw [hsame] at hactive ⊢
    rw [hsame'] at hactive' ⊢
    exact hexclusive first hfirst second hsecond hactive hactive'

/-- What a pass keeps: the tasks of the key are apart as long as every start was
apart. -/
structure ApartLog (answers : Answers) (allTasks : List TaskId) (key : ExclusiveKey)
    (manager : TaskManager) : Prop where
  marked : manager.AllMarked allTasks
  exclusive_iff : Exclusive manager.tasks allTasks key ↔
    ∀ start ∈ manager.starts, start.Apart answers allTasks key

theorem apartLog_processPendingTask (hid : id ∈ allTasks)
    (hlog : ApartLog answers allTasks key manager)
    (hpending : (manager.tasks id).status = .pending) :
    ApartLog answers allTasks key (manager.processPendingTask answers id) := by
  obtain hsame | hfailed | ⟨placed, fromIdle, hfree, hplacement, hstart⟩ :=
    @processPendingTask_cases answers manager id
  · rw [hsame]
    exact hlog
  · have hstarted : ∀ other,
        (Function.update manager.tasks id
            { manager.tasks id with status := .failed } other).Started ∨
          (manager.tasks other).Started →
        Function.update manager.tasks id { manager.tasks id with status := .failed } other =
          manager.tasks other := by
      intro other hother
      by_cases hsame : other = id
      · subst hsame
        simp [Task.Started, hpending] at hother
      · exact Function.update_of_ne hsame ..
    rw [hfailed]
    exact
      { marked := by
          intro other hother hactive jobType entry hmarks
          have hsame := hstarted other (Or.inl hactive)
          simp only [hsame] at hactive hmarks
          exact hlog.marked other hother hactive jobType entry hmarks
        exclusive_iff := (exclusive_congr hstarted).trans hlog.exclusive_iff }
  · rw [hstart]
    exact
      { marked := allMarked_startTask hlog.marked hplacement.kind
        exclusive_iff := by
          rw [exclusive_startTask_iff hlog.marked hid hpending hfree hplacement.kind,
            hlog.exclusive_iff, startTask, List.forall_mem_cons, and_comm] }

theorem apart_of_ne {start : Start} (hkey : ∀ template, key ≠ .jobTemplate template) :
    start.Apart answers allTasks key := by
  intro hjob hstartKey
  have hhas := hasKey_of_exclusiveKey hstartKey
  generalize start.task.kind = kind at hjob hhas
  cases hhas with
  | job => exact absurd rfl (hkey _)
  | slicedJob => cases hjob
  | workflowJob => cases hjob
  | projectUpdate => cases hjob
  | inventoryUpdate => cases hjob
  | systemJob => cases hjob

/-- Over a pass, the tasks of a key stay apart exactly when no start was that of
a plain job beside an active sliced workflow job of the key.  For other keys
than those of job templates they always do. -/
theorem exclusive_processTasks_iff (cluster : Cluster) (tasks : TaskId → Task)
    (startTaskLimit : ℕ) (answers : Answers) {allTasks : List TaskId}
    (hnodup : allTasks.Nodup) (key : ExclusiveKey)
    (hexclusive : Exclusive tasks allTasks key) :
    let after := (init cluster tasks startTaskLimit).processTasks answers allTasks
    (Exclusive after.tasks allTasks key ↔
        ∀ start ∈ after.starts, start.Apart answers allTasks key) ∧
      ((∀ template, key ≠ .jobTemplate template) → Exclusive after.tasks allTasks key) := by
  intro after
  have hstart : ApartLog answers allTasks key
      ((init cluster tasks startTaskLimit).countTasks allTasks) :=
    { marked := allMarked_countTasks
      exclusive_iff := by
        rw [tasks_countTasks, starts_countTasks]
        exact iff_of_true hexclusive fun start hmem => absurd hmem List.not_mem_nil }
  have hafter : ApartLog answers allTasks key after :=
    processTasks_invariant (ApartLog answers allTasks key)
      (fun _ _ hid hlog => apartLog_processPendingTask hid hlog) hnodup hstart
  exact ⟨hafter.exclusive_iff, fun hkey =>
    hafter.exclusive_iff.mpr fun _ _ => apart_of_ne hkey⟩

theorem exclusive_of_only_active {tasks : TaskId → Task} {only : TaskId}
    (honly : ∀ id ∈ allTasks, (tasks id).Started → id = only) :
    Exclusive tasks allTasks key := by
  intro first hfirst second hsecond hactive hactive' _ _
  exact (honly first hfirst hactive).trans (honly second hsecond hactive').symm

def jobBesideSlicedJob (template : ℕ) : TaskId → Task
  | 0 => { pendingTask (.workflowJob none (some 5) false) [] with status := .running }
  | _ => pendingTask (jobOfSize template 2) [1]

theorem exclusive_processTasks_other_template :
    let after := (init (smallCluster 0 0) (jobBesideSlicedJob 6) 10).processTasks allStart
      [0, 1]
    after.starts.length = 1 ∧ Exclusive after.tasks [0, 1] (.jobTemplate 6) := by
  intro after
  have hapart : ∀ start ∈ after.starts, start.Apart allStart [0, 1] (.jobTemplate 6) := by
    have htest : after.starts.all (fun start =>
        decide (start.Apart allStart [0, 1] (.jobTemplate 6))) = true := by decide
    intro start hmem
    exact of_decide_eq_true (List.all_eq_true.mp htest start hmem)
  exact ⟨by decide, (exclusive_processTasks_iff (smallCluster 0 0) (jobBesideSlicedJob 6) 10
    allStart (by decide) (.jobTemplate 6)
    (@exclusive_of_only_active _ _ _ 0 (by decide))).1.mpr hapart⟩

theorem started_beside_sliced_job :
    ¬ ∀ (cluster : Cluster) (tasks : TaskId → Task) (startTaskLimit : ℕ) (answers : Answers)
      (allTasks : List TaskId) (key : ExclusiveKey), allTasks.Nodup →
      Exclusive tasks allTasks key →
      Exclusive ((init cluster tasks startTaskLimit).processTasks answers allTasks).tasks
        allTasks key := by
  intro hclaim
  have hafter := hclaim (smallCluster 0 0) (jobBesideSlicedJob 5) 10 allStart [0, 1]
    (.jobTemplate 5) (by decide) (@exclusive_of_only_active _ _ _ 0 (by decide))
  exact absurd (hafter 0 (by decide) 1 (by decide) (by decide) (by decide) (by decide)
    (by decide)) (by decide)

end TaskManager

end Forail.Scheduling
