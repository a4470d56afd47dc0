import Forail.Scheduler.WorkflowCancel

/-!
# Which nodes of a workflow get a job

The runs of the workflow manager with a log of what its passes write: the nodes
they mark `do_not_run` and the nodes for which they create a job.  A node gets
one job at most, and only when opened edges lead to it from a root.  A node that
is marked stays marked and gets no job, unless a pass over a canceled workflow
marks the nodes and then starts some of them.
-/

namespace Forail.DagWorkflow

open Relation
open Forail.SimpleDag Forail.UnifiedJobs Forail.Runs

/-- What a pass writes to the row of one node; `memory` are the node states of
the graph when the job is created. -/
inductive Entry where
  | marked (node : NodeId)
  | spawned (node : NodeId) (memory : NodeStates)

namespace Entry

def marked? : Entry → Option NodeId
  | marked node => some node
  | spawned _ _ => none

def spawned? : Entry → Option NodeId
  | marked _ => none
  | spawned node _ => some node

end Entry

namespace WorkflowDAG

variable (dag : WorkflowDAG)

def spawnEntries (memory : NodeStates) : List Entry :=
  ((dag.bfsNodesToRun memory).filter fun node =>
    (memory node).unifiedJobTemplate.isSome).map fun node => .spawned node memory

def passEntries (state : WorkflowState) : List Entry :=
  if state.status ≠ .running then []
  else if state.cancelFlag then
    ((dag.nodes.filter fun node =>
      !(state.nodes node).doNotRun && (state.nodes node).job.isNone).map .marked) ++
      if (dag.cancelNodeJobs state.nodes).1 then []
      else dag.spawnEntries (dag.cancelNodeJobs state.nodes).2
  else
    match dag.markDnrNodes state.nodes with
    | none => []
    | some (memory, dnrNodes) =>
        dnrNodes.map .marked ++
          if dag.isWorkflowDone memory then [] else dag.spawnEntries memory

structure Recorded where
  state : WorkflowState
  log : List Entry

def stepEntries (state : WorkflowState) : Event → List Entry
  | .managerPass _ => dag.passEntries state
  | _ => []

def recordedStep (recorded : Recorded) (event : Event) : Option Recorded :=
  (dag.step recorded.state event).map fun state =>
    { state := state
      log := recorded.log ++ dag.stepEntries recorded.state event }

end WorkflowDAG

variable {dag : WorkflowDAG} {states : NodeStates} {node : NodeId}

/-! ## One pass -/

theorem nodup_bfsNodesToRun : (dag.bfsNodesToRun states).Nodup := by
  have hfound : dag.bfsNodesToRun states =
      (Worklist.traverse (dag.nextNodes states) dag.bfsFuel dag.getRootNodes
        []).filter (dag.isRunnable states) := WorkflowDAG.bfsLoop_eq_filter
  rw [hfound]
  exact (Worklist.nodup_traverse List.nodup_nil).filter _

theorem mem_spawnEntries_iff {memory memory' : NodeStates} :
    Entry.spawned node memory' ∈ dag.spawnEntries memory ↔
      node ∈ dag.bfsNodesToRun memory ∧ memory' = memory := by
  simp only [WorkflowDAG.spawnEntries, List.mem_map, List.mem_filter, Entry.spawned.injEq]
  constructor
  · rintro ⟨found, ⟨hfound, -⟩, rfl, rfl⟩
    exact ⟨hfound, rfl⟩
  · rintro ⟨hfound, rfl⟩
    have htemplate := (WorkflowDAG.template_of_mem_bfs hfound).1
    exact ⟨node, ⟨hfound, Option.isSome_iff_ne_none.mpr htemplate⟩, rfl, rfl⟩

theorem filterMap_spawnEntries (memory : NodeStates) :
    (dag.spawnEntries memory).filterMap Entry.spawned? = dag.bfsNodesToRun memory := by
  have htemplate : ∀ node ∈ dag.bfsNodesToRun memory,
      (memory node).unifiedJobTemplate.isSome = true := fun node hfound =>
    Option.isSome_iff_ne_none.mpr (WorkflowDAG.template_of_mem_bfs hfound).1
  rw [WorkflowDAG.spawnEntries, List.filter_eq_self.mpr htemplate, List.filterMap_map]
  exact List.filterMap_some

theorem markDnrNodes_sets {memory : NodeStates} {dnrNodes : List NodeId}
    (hmark : dag.markDnrNodes states = some (memory, dnrNodes)) :
    (∀ node, (memory node).job = (states node).job) ∧
      (∀ node, (memory node).doNotRun = true ↔
        (states node).doNotRun = true ∨ node ∈ dnrNodes) := by
  obtain ⟨sorted, -, hfold⟩ := Option.map_eq_some_iff.mp hmark
  have hloop : ∀ (sorted : List NodeId) (first : NodeStates × List NodeId),
      let last := sorted.foldl (fun acc node =>
        if dag.marksDnr acc.1 node then
          (Function.update acc.1 node { acc.1 node with doNotRun := true }, acc.2 ++ [node])
        else acc) first
      (∀ node, (last.1 node).job = (first.1 node).job) ∧
        ((∀ node, (first.1 node).doNotRun = true ↔
            (states node).doNotRun = true ∨ node ∈ first.2) →
          ∀ node, (last.1 node).doNotRun = true ↔
            (states node).doNotRun = true ∨ node ∈ last.2) := by
    intro sorted
    induction sorted with
    | nil => exact fun first => ⟨fun _ => rfl, id⟩
    | cons head sorted ih =>
      intro first
      rw [List.foldl_cons]
      split
      · obtain ⟨hjob, hflag⟩ := ih (Function.update first.1 head
          { first.1 head with doNotRun := true }, first.2 ++ [head])
        refine ⟨fun node => ?_, fun hfirst => hflag fun node => ?_⟩
        · rw [hjob]
          by_cases hnode : node = head
          · simp [hnode]
          · simp [Function.update_of_ne hnode]
        · by_cases hnode : node = head
          · simp [hnode]
          · simp [hfirst node, hnode]
      · exact ih first
  obtain ⟨hjob, hflag⟩ := hloop sorted (states, [])
  rw [hfold] at hjob hflag
  exact ⟨hjob, hflag (by simp)⟩

theorem fresh_of_spawned {state : WorkflowState} {memory : NodeStates}
    (hentry : Entry.spawned node memory ∈ dag.passEntries state) :
    (state.nodes node).job = none ∧ (state.nodes node).doNotRun = false ∧
      node ∈ dag.bfsNodesToRun memory := by
  simp only [WorkflowDAG.passEntries] at hentry
  split at hentry
  · simp at hentry
  · split at hentry
    · simp only [List.mem_append, List.mem_map, reduceCtorEq, and_false, exists_false,
        false_or] at hentry
      split at hentry
      · simp at hentry
      · obtain ⟨hfound, rfl⟩ := mem_spawnEntries_iff.mp hentry
        obtain ⟨-, hjob, hkeep⟩ := WorkflowDAG.template_of_mem_bfs hfound
        simp only [cancelNodeJobs_eq] at hjob hkeep
        exact ⟨job_canceledNodes_eq_none_iff.mp hjob, doNotRun_canceledNodes ▸ hkeep, hfound⟩
    · split at hentry
      · simp at hentry
      · next marking dnrNodes hmark =>
        simp only [List.mem_append, List.mem_map, reduceCtorEq, and_false, exists_false,
          false_or] at hentry
        split at hentry
        · simp at hentry
        · obtain ⟨hfound, rfl⟩ := mem_spawnEntries_iff.mp hentry
          obtain ⟨-, hjob, hkeep⟩ := WorkflowDAG.template_of_mem_bfs hfound
          obtain ⟨hsame, hflag⟩ := markDnrNodes_sets hmark
          refine ⟨by rw [← hsame, hjob], ?_, hfound⟩
          rw [← Bool.not_eq_true]
          intro hmarked
          simp [(hflag node).mpr (.inl hmarked)] at hkeep

/-- The condition on a pass over a canceled workflow: it starts nothing. -/
def StartsNothing (dag : WorkflowDAG) (state : WorkflowState) : Prop :=
  NoActiveJob dag state.nodes ∨
    ∀ node, ¬ Ready dag (canceledNodes dag state.nodes) node

structure PassRows (dag : WorkflowDAG) (state state' : WorkflowState) : Prop where
  job : ∀ node, (state.nodes node).job ≠ none → (state'.nodes node).job ≠ none
  flag : ∀ node, (state.nodes node).doNotRun = true → (state'.nodes node).doNotRun = true
  spawned : ∀ node memory, Entry.spawned node memory ∈ dag.passEntries state →
    (state'.nodes node).job ≠ none
  gained : ∀ node, (state.nodes node).job = none → (state'.nodes node).job ≠ none →
    ∃ memory, Entry.spawned node memory ∈ dag.passEntries state
  marked : (state.cancelFlag = true → StartsNothing dag state) →
    ∀ node, Entry.marked node ∈ dag.passEntries state → (state'.nodes node).doNotRun = true

theorem passRows_of_nodes {state state' : WorkflowState} {launch : NodeId → Launch}
    {memory rows : NodeStates} {marks : List NodeId} {ended : Prop} [Decidable ended]
    (hentries : dag.passEntries state =
      marks.map .marked ++ if ended then [] else dag.spawnEntries memory)
    (hnodes : state'.nodes = if ended then rows
      else WorkflowDAG.saveSpawned memory launch (dag.bfsNodesToRun memory) rows)
    (hjob : ∀ node, (rows node).job = none ↔ (state.nodes node).job = none)
    (hrows : ∀ node, (state.nodes node).doNotRun = true → (rows node).doNotRun = true)
    (hmemory : ∀ node, (state.nodes node).doNotRun = true → (memory node).doNotRun = true)
    (hmarks : (state.cancelFlag = true → StartsNothing dag state) →
      ∀ node ∈ marks, (state'.nodes node).doNotRun = true) :
    PassRows dag state state' := by
  refine ⟨?_, ?_, ?_, ?_, ?_⟩
  · intro node hold
    rw [hnodes]
    split
    · exact mt (hjob node).mp hold
    · rw [WorkflowDAG.saveSpawned_bfs]
      split
      · simp
      · exact mt (hjob node).mp hold
  · intro node hmarked
    rw [hnodes]
    split
    · exact hrows node hmarked
    · rw [WorkflowDAG.saveSpawned_bfs]
      split
      · exact hmemory node hmarked
      · exact hrows node hmarked
  · intro node found hentry
    rw [hentries, List.mem_append] at hentry
    split at hentry
    · simp at hentry
    · next hgoes =>
      obtain ⟨hfound, rfl⟩ := mem_spawnEntries_iff.mp (hentry.resolve_left (by simp))
      rw [hnodes, if_neg hgoes, WorkflowDAG.saveSpawned_bfs, if_pos hfound]
      simp
  · intro node hold hnew
    rw [hnodes] at hnew
    split at hnew
    · exact absurd ((hjob node).mpr hold) hnew
    · next hgoes =>
      rw [WorkflowDAG.saveSpawned_bfs] at hnew
      split at hnew
      · next hfound =>
        refine ⟨memory, ?_⟩
        rw [hentries, if_neg hgoes]
        exact List.mem_append_right _ (mem_spawnEntries_iff.mpr ⟨hfound, rfl⟩)
      · exact absurd ((hjob node).mpr hold) hnew
  · intro hnothing node hentry
    rw [hentries, List.mem_append] at hentry
    apply hmarks hnothing
    rcases hentry with hmarked | hspawned
    · simpa using hmarked
    · split at hspawned
      · simp at hspawned
      · simp [WorkflowDAG.spawnEntries] at hspawned

theorem passRows_cancelPass {state : WorkflowState} {launch : NodeId → Launch}
    (hstatus : state.status = .running) (hcancel : state.cancelFlag = true) :
    PassRows dag state (dag.cancelPass state launch) := by
  have hentries : dag.passEntries state =
      ((dag.nodes.filter fun node =>
        !(state.nodes node).doNotRun && (state.nodes node).job.isNone).map .marked) ++
        if NoActiveJob dag state.nodes then []
        else dag.spawnEntries (canceledNodes dag state.nodes) := by
    simp [WorkflowDAG.passEntries, hstatus, hcancel, cancelNodeJobs_eq]
  refine passRows_of_nodes hentries nodes_cancelPass
    (fun _ => job_canceledNodes_eq_none_iff) ?_ ?_ ?_
  · intro node hmarked
    simp [canceledRows, WorkflowDAG.markRows, hmarked]
  · intro node hmarked
    rw [doNotRun_canceledNodes]
    exact hmarked
  · intro hnothing node hmarked
    rw [nodes_cancelPass_of_not_ready (hnothing hcancel)]
    obtain ⟨hmem, htest⟩ := List.mem_filter.mp hmarked
    have hnone : (state.nodes node).job = none := by
      simpa using (Bool.and_eq_true_iff.mp htest).2
    exact quiet_canceledRows node hmem (job_canceledNodes_eq_none_iff.mpr hnone)

theorem passRows_progressPass {state state' : WorkflowState} {launch : NodeId → Launch}
    (hstatus : state.status = .running) (hcancel : state.cancelFlag = false)
    (hpass : dag.progressPass state launch = some state') : PassRows dag state state' := by
  obtain ⟨⟨memory, dnrNodes⟩, hmark, hstate⟩ := Option.map_eq_some_iff.mp hpass
  obtain ⟨hjob, hflag⟩ := markDnrNodes_sets hmark
  have hentries : dag.passEntries state = dnrNodes.map .marked ++
      if dag.isWorkflowDone memory then [] else dag.spawnEntries memory := by
    simp [WorkflowDAG.passEntries, hstatus, hcancel, hmark]
  have hnodes : state'.nodes = if dag.isWorkflowDone memory then memory
      else WorkflowDAG.saveSpawned memory launch (dag.bfsNodesToRun memory) memory := by
    rw [← hstate]
    simp only
    split <;> rfl
  have hmemory : ∀ node, (state.nodes node).doNotRun = true → (memory node).doNotRun = true :=
    fun node hmarked => (hflag node).mpr (.inl hmarked)
  refine passRows_of_nodes hentries hnodes (fun node => by rw [hjob]) hmemory hmemory ?_
  intro _ node hmarked
  rw [hnodes]
  split
  · exact (hflag node).mpr (.inr hmarked)
  · rw [WorkflowDAG.saveSpawned_bfs]
    split <;> exact (hflag node).mpr (.inr hmarked)

theorem passRows_managerPass {state state' : WorkflowState} {launch : NodeId → Launch}
    (hpass : dag.managerPass state launch = some state') : PassRows dag state state' := by
  rw [WorkflowDAG.managerPass] at hpass
  split at hpass
  · simp at hpass
  · next hstatus =>
    have hstatus : state.status = .running := by simpa using hstatus
    split at hpass
    · next hcancel =>
      obtain rfl := Option.some.inj hpass
      exact passRows_cancelPass hstatus hcancel
    · next hcancel =>
      exact passRows_progressPass hstatus (by simpa using hcancel) hpass

theorem step_keeps {state state' : WorkflowState} {event : WorkflowDAG.Event}
    (hstep : dag.step state event = some state') (node : NodeId) :
    ((state.nodes node).job ≠ none → (state'.nodes node).job ≠ none) ∧
      ((state.nodes node).doNotRun = true → (state'.nodes node).doNotRun = true) := by
  cases event with
  | managerPass launch =>
    have hrows := passRows_managerPass hstep
    exact ⟨hrows.job node, hrows.flag node⟩
  | cancelWorkflow =>
    obtain rfl := Option.some.inj hstep
    exact ⟨id, id⟩
  | updateJob changed job =>
    obtain ⟨nodes, hnodes, rfl⟩ := Option.map_eq_some_iff.mp hstep
    obtain ⟨old, hold, -, rfl⟩ := WorkflowDAG.updateJob_eq_some_iff.mp hnodes
    by_cases hnode : node = changed
    · subst hnode
      simp
    · simp [Function.update_of_ne hnode]
  | deleteTemplate template =>
    obtain rfl := Option.some.inj hstep
    simp only [WorkflowDAG.deleteTemplate]
    split <;> exact ⟨id, id⟩

theorem spawned_of_gained {state state' : WorkflowState} {event : WorkflowDAG.Event}
    (hstep : dag.step state event = some state') (hold : (state.nodes node).job = none)
    (hnew : (state'.nodes node).job ≠ none) :
    node ∈ (dag.stepEntries state event).filterMap Entry.spawned? := by
  cases event with
  | managerPass launch =>
    obtain ⟨memory, hentry⟩ := (passRows_managerPass hstep).gained node hold hnew
    exact List.mem_filterMap.mpr ⟨.spawned node memory, hentry, rfl⟩
  | cancelWorkflow =>
    obtain rfl := Option.some.inj hstep
    exact absurd hold hnew
  | updateJob changed job =>
    obtain ⟨nodes, hnodes, rfl⟩ := Option.map_eq_some_iff.mp hstep
    obtain ⟨old, hchanged, -, rfl⟩ := WorkflowDAG.updateJob_eq_some_iff.mp hnodes
    have hnode : node ≠ changed := by
      rintro rfl
      simp [hold] at hchanged
    simp only [Function.update_of_ne hnode] at hnew
    exact absurd hold hnew
  | deleteTemplate template =>
    obtain rfl := Option.some.inj hstep
    exact absurd ((WorkflowDAG.job_deleteTemplate template).trans hold) hnew

/-! ## Runs -/

def ReachedFromRoot (dag : WorkflowDAG) (memory : NodeStates) (node : NodeId) : Prop :=
  ∃ root ∈ dag.getRootNodes, ∃ parent, ReflTransGen (LetsRun dag memory) root parent ∧
    LetsRun dag memory parent node

theorem reachedFromRoot_of_mem_bfs (hfound : node ∈ dag.bfsNodesToRun states)
    (hroot : node ∉ dag.getRootNodes) : ReachedFromRoot dag states node := by
  obtain ⟨-, root, hmem, hpath⟩ := WorkflowDAG.mem_bfsNodesToRun_iff.mp hfound
  rcases ReflTransGen.cases_tail hpath with hself | ⟨parent, hinitial, hlets⟩
  · exact absurd (hself ▸ hmem) hroot
  · exact ⟨root, hmem, parent, hinitial, hlets⟩

/-- No node gets two jobs, and a node that is no root gets one only when a parent
opened an edge to it. -/
structure JobsAccounted (dag : WorkflowDAG) (recorded : WorkflowDAG.Recorded) : Prop where
  once : (recorded.log.filterMap Entry.spawned?).Nodup
  logged_iff : ∀ node, node ∈ recorded.log.filterMap Entry.spawned? ↔
    (recorded.state.nodes node).job ≠ none
  reached : ∀ node memory, Entry.spawned node memory ∈ recorded.log →
    node ∉ dag.getRootNodes → ReachedFromRoot dag memory node

/-- A marked node stays marked and gets no job afterwards. -/
structure MarksKept (recorded : WorkflowDAG.Recorded) : Prop where
  stays : ∀ node ∈ recorded.log.filterMap Entry.marked?,
    (recorded.state.nodes node).doNotRun = true
  no_job : recorded.log.Pairwise fun earlier later =>
    ∀ node, earlier.marked? = some node → later.spawned? ≠ some node

theorem nodup_spawned_passEntries (state : WorkflowState) :
    ((dag.passEntries state).filterMap Entry.spawned?).Nodup := by
  have hmarked : ∀ nodes : List NodeId,
      (nodes.map Entry.marked).filterMap Entry.spawned? = [] := by
    intro nodes
    simp [Entry.spawned?]
  rw [WorkflowDAG.passEntries]
  split
  · simp
  · split
    · rw [List.filterMap_append, hmarked, List.nil_append]
      split
      · simp
      · rw [filterMap_spawnEntries]
        exact nodup_bfsNodesToRun
    · split
      · simp
      · rw [List.filterMap_append, hmarked, List.nil_append]
        split
        · simp
        · rw [filterMap_spawnEntries]
          exact nodup_bfsNodesToRun

/-- In a pass that starts nothing once the workflow is canceled, no node is
marked and gets a job. -/
theorem not_spawned_of_marked {state : WorkflowState} {memory : NodeStates}
    (hnothing : state.cancelFlag = true → StartsNothing dag state)
    (hmarked : Entry.marked node ∈ dag.passEntries state) :
    Entry.spawned node memory ∉ dag.passEntries state := by
  intro hspawned
  simp only [WorkflowDAG.passEntries] at hmarked hspawned
  split at hmarked
  · simp at hmarked
  · next hstatus =>
    rw [if_neg hstatus] at hspawned
    split at hmarked
    · next hcancel =>
      rw [if_pos hcancel, List.mem_append] at hspawned
      have hentry := hspawned.resolve_left (by simp)
      simp only [cancelNodeJobs_eq, decide_eq_true_eq] at hentry
      split at hentry
      · simp at hentry
      · next hactive =>
        obtain ⟨hfound, -⟩ := mem_spawnEntries_iff.mp hentry
        exact (hnothing hcancel).resolve_left hactive node (mem_bfs_iff_ready.mp hfound)
    · next hcancel =>
      rw [if_neg hcancel] at hspawned
      split at hmarked
      · simp at hmarked
      · next marking dnrNodes hmark =>
        simp only [hmark, List.mem_append] at hspawned
        have hentry := hspawned.resolve_left (by simp)
        have hnode : node ∈ dnrNodes := by
          rcases List.mem_append.mp hmarked with hnode | hother
          · simpa using hnode
          · split at hother
            · simp at hother
            · simp [WorkflowDAG.spawnEntries] at hother
        split at hentry
        · simp at hentry
        · obtain ⟨hfound, rfl⟩ := mem_spawnEntries_iff.mp hentry
          have hkeep := (WorkflowDAG.template_of_mem_bfs hfound).2.2
          simp [((markDnrNodes_sets hmark).2 node).mpr (.inr hnode)] at hkeep

theorem recordedStep_eq_some_iff {recorded recorded' : WorkflowDAG.Recorded}
    {event : WorkflowDAG.Event} :
    dag.recordedStep recorded event = some recorded' ↔
      dag.step recorded.state event = some recorded'.state ∧
        recorded'.log = recorded.log ++ dag.stepEntries recorded.state event := by
  obtain ⟨state', log'⟩ := recorded'
  rw [WorkflowDAG.recordedStep, Option.map_eq_some_iff]
  simp only [WorkflowDAG.Recorded.mk.injEq]
  constructor
  · rintro ⟨state', hstep, rfl, rfl⟩
    exact ⟨hstep, rfl⟩
  · rintro ⟨hstep, rfl⟩
    exact ⟨state', hstep, rfl, rfl⟩

theorem JobsAccounted.step {recorded recorded' : WorkflowDAG.Recorded}
    {event : WorkflowDAG.Event} (haccounted : JobsAccounted dag recorded)
    (hstep : dag.recordedStep recorded event = some recorded') :
    JobsAccounted dag recorded' := by
  obtain ⟨hstate, hlog⟩ := recordedStep_eq_some_iff.mp hstep
  have hspawned : ∀ node ∈ (dag.stepEntries recorded.state event).filterMap Entry.spawned?,
      (recorded.state.nodes node).job = none ∧ (recorded'.state.nodes node).job ≠ none := by
    intro node hnode
    obtain ⟨entry, hentry, hnode⟩ := List.mem_filterMap.mp hnode
    cases event with
    | managerPass launch =>
      cases entry with
      | marked other => simp [Entry.spawned?] at hnode
      | spawned other memory =>
        obtain rfl := Option.some.inj hnode
        exact ⟨(fresh_of_spawned hentry).1, (passRows_managerPass hstate).spawned _ _ hentry⟩
    | _ => simp [WorkflowDAG.stepEntries] at hentry
  refine ⟨?_, ?_, ?_⟩
  · rw [hlog, List.filterMap_append, List.nodup_append']
    refine ⟨haccounted.once, ?_, fun node hold hnew => ?_⟩
    · cases event with
      | managerPass launch => exact nodup_spawned_passEntries recorded.state
      | _ => simp [WorkflowDAG.stepEntries]
    · exact (haccounted.logged_iff node).mp hold (hspawned node hnew).1
  · intro node
    rw [hlog, List.filterMap_append, List.mem_append]
    constructor
    · rintro (hold | hnew)
      · exact (step_keeps hstate node).1 ((haccounted.logged_iff node).mp hold)
      · exact (hspawned node hnew).2
    · intro hjob
      by_cases hold : (recorded.state.nodes node).job = none
      · exact .inr (spawned_of_gained hstate hold hjob)
      · exact .inl ((haccounted.logged_iff node).mpr hold)
  · intro node memory hentry hroot
    rw [hlog, List.mem_append] at hentry
    rcases hentry with hold | hnew
    · exact haccounted.reached node memory hold hroot
    · cases event with
      | managerPass launch =>
        exact reachedFromRoot_of_mem_bfs (fresh_of_spawned hnew).2.2 hroot
      | _ => simp [WorkflowDAG.stepEntries] at hnew

/-- The condition on a step: a pass over a canceled workflow starts nothing. -/
def CancelsCleanly (dag : WorkflowDAG) (recorded : WorkflowDAG.Recorded) :
    WorkflowDAG.Event → Prop
  | .managerPass _ => recorded.state.cancelFlag = true → StartsNothing dag recorded.state
  | _ => True

theorem MarksKept.step {recorded recorded' : WorkflowDAG.Recorded}
    {event : WorkflowDAG.Event} (hkept : MarksKept recorded)
    (hclean : CancelsCleanly dag recorded event)
    (hstep : dag.recordedStep recorded event = some recorded') : MarksKept recorded' := by
  obtain ⟨hstate, hlog⟩ := recordedStep_eq_some_iff.mp hstep
  refine ⟨?_, ?_⟩
  · intro node hnode
    rw [hlog, List.filterMap_append, List.mem_append] at hnode
    rcases hnode with hold | hnew
    · exact (step_keeps hstate node).2 (hkept.stays node hold)
    · obtain ⟨entry, hentry, hnode⟩ := List.mem_filterMap.mp hnew
      cases event with
      | managerPass launch =>
        cases entry with
        | marked other =>
          obtain rfl := Option.some.inj hnode
          exact (passRows_managerPass hstate).marked hclean _ hentry
        | spawned other memory => simp [Entry.marked?] at hnode
      | _ => simp [WorkflowDAG.stepEntries] at hentry
  · rw [hlog, List.pairwise_append]
    refine ⟨hkept.no_job, ?_, ?_⟩
    · cases event with
      | managerPass launch =>
        refine List.pairwise_of_forall_mem_list fun earlier hearlier later hlater node => ?_
        cases earlier with
        | spawned other memory => simp [Entry.marked?]
        | marked other =>
          cases later with
          | marked third => simp [Entry.spawned?]
          | spawned third memory =>
            intro hfirst hsecond
            obtain rfl : other = node := Option.some.inj hfirst
            obtain rfl : third = other := Option.some.inj hsecond
            exact not_spawned_of_marked hclean hearlier hlater
      | _ => simp [WorkflowDAG.stepEntries]
    · intro earlier hearlier later hlater node hmarked hspawned
      have hflag := hkept.stays node (List.mem_filterMap.mpr ⟨earlier, hearlier, hmarked⟩)
      cases event with
      | managerPass launch =>
        cases later with
        | marked third => simp [Entry.spawned?] at hspawned
        | spawned third memory =>
          obtain rfl := Option.some.inj hspawned
          simp [(fresh_of_spawned hlater).2.1] at hflag
      | _ => simp [WorkflowDAG.stepEntries] at hlater

theorem jobsAccounted_of_run {start : WorkflowState} (hstart : start.Started)
    {allowed : WorkflowDAG.Recorded → WorkflowDAG.Event → Prop}
    {recorded : WorkflowDAG.Recorded}
    (hrun : Run dag.recordedStep allowed ⟨start, []⟩ recorded) :
    JobsAccounted dag recorded := by
  refine hrun.invariant (JobsAccounted dag) ?_ fun _ _ _ haccounted _ hstep =>
    haccounted.step hstep
  exact ⟨by simp, by simp [hstart.no_job], by simp⟩

/-- In a run whose passes start nothing once the workflow is canceled, marked
nodes also stay marked and get no job. -/
theorem spawned_nodes_reached {start : WorkflowState} (hstart : start.Started)
    {recorded : WorkflowDAG.Recorded}
    (hrun : Run dag.recordedStep (CancelsCleanly dag) ⟨start, []⟩ recorded) :
    JobsAccounted dag recorded ∧ MarksKept recorded := by
  refine ⟨jobsAccounted_of_run hstart hrun, ?_⟩
  refine hrun.invariant MarksKept ?_ fun _ _ _ hkept hclean hstep => hkept.step hclean hstep
  exact ⟨by simp, by simp⟩

theorem spawned_nodes_reached_pair :
    ∃ recorded, Run failurePair.recordedStep (CancelsCleanly failurePair)
        ⟨startedState false, []⟩ recorded ∧
      recorded.log.filterMap Entry.marked? = [1] ∧
      JobsAccounted failurePair recorded ∧ MarksKept recorded := by
  have hpasses : ([WorkflowDAG.Event.managerPass launchAll,
      .updateJob 0 { status := .failed, celeryTaskId := "task", cancelFlag := false },
      .cancelWorkflow, .managerPass launchAll].foldlM
        (fun recorded event =>
          if recorded.state.cancelFlag = true → NoActiveJob failurePair recorded.state.nodes then
            failurePair.recordedStep recorded event
          else none) ⟨startedState false, []⟩).any (fun recorded =>
        decide (recorded.log.filterMap Entry.marked? = [1])) = true := by decide
  obtain ⟨recorded, hrecorded, htest⟩ := Option.any_eq_true .. |>.mp hpasses
  have hrun : Run failurePair.recordedStep (CancelsCleanly failurePair)
      ⟨startedState false, []⟩ recorded := by
    refine (run_of_checked _ hrecorded).mono fun earlier event hended => ?_
    cases event with
    | managerPass launch => exact fun hcancel => .inl (hended hcancel)
    | _ => trivial
  exact ⟨recorded, hrun, of_decide_eq_true htest,
    spawned_nodes_reached (started_startedState false) hrun⟩

theorem marked_then_spawned :
    ¬ ∀ (dag : WorkflowDAG) (start : WorkflowState) (recorded : WorkflowDAG.Recorded),
      start.Started → Run dag.recordedStep (fun _ _ => True) ⟨start, []⟩ recorded →
      JobsAccounted dag recorded ∧ MarksKept recorded := by
  intro hclaim
  have hreset : ([WorkflowDAG.Event.managerPass launchAll, .cancelWorkflow,
        .managerPass launchAll].foldlM failurePair.recordedStep
          ⟨startedState false, []⟩).any (fun recorded =>
        decide (1 ∈ recorded.log.filterMap Entry.marked?) &&
          !(recorded.state.nodes 1).doNotRun) = true := by decide
  obtain ⟨recorded, hrun, htest⟩ := exists_run_of_any _ hreset
  simp only [Bool.and_eq_true, decide_eq_true_eq] at htest
  have hkept := (hclaim failurePair _ recorded (started_startedState false) hrun).2
  simp [hkept.stays 1 htest.1] at htest

end Forail.DagWorkflow
