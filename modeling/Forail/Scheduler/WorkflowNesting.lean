import Mathlib.Data.List.Chain
import Forail.Core.Runs
import Forail.Scheduler.WorkflowAncestors

/-!
# No recursive workflow is started

The workflow manager creates the job of a node before it looks at the workflow
jobs above it.  A job that repeats one of their templates is left failed, and a
failed job is never started.
-/

namespace Forail.NestedWorkflows

open Relation
open Forail.UnifiedJobs Forail.Runs

variable {store : Store} {job other : JobId} {row : Job} {added : List WorkflowJobNode}

/-! ## New jobs -/

def Store.addJob (store : Store) (row : Job) (added : List WorkflowJobNode) : Store :=
  { store with
    jobs := store.jobs ++ [row]
    nodes := store.nodes ++ added }

structure Admissible (store : Store) (row : Job) (added : List WorkflowJobNode) : Prop where
  node : ∀ node ∈ added, node.workflowJob = store.jobs.length ∧ node.job = none
  node_parent : ∀ node ∈ added, row.isWorkflowJob = true
  slice : ∀ node ∈ added, row.workflowJobTemplate = none →
    row.unifiedJobTemplate.isSome = true → node.jobSlice = true
  slice_template : ∀ node ∈ added, node.jobSlice = true →
    ∀ template, node.unifiedJobTemplate = some template →
      store.templates[template]? = some .jobTemplate
  workflow_template : ∀ template, row.workflowJobTemplate = some template →
    (store.templates[template]?).any Template.isWorkflow = true
  slice_job_template : ∀ template, row.isWorkflowJob = true →
    row.workflowJobTemplate = none → row.unifiedJobTemplate = some template →
      store.templates[template]? = some .jobTemplate
  has_template : row.launchType = .workflow → row.isWorkflowJob = true →
    row.unifiedJobTemplate.isSome = true

theorem admissible_createUnifiedJob (store : Store) (template : TemplateId)
    (launchType : LaunchType) (preventSlicing : Bool) (sliceCount : ℕ) :
    ∃ row added, store.createUnifiedJob template launchType preventSlicing sliceCount =
        store.addJob row added ∧ Admissible store row added ∧ row.launchType = launchType ∧
      (row.isWorkflowJob = true → row.unifiedJobTemplate = some template ∧
        (store.templates[template]? = some .jobTemplate → preventSlicing = false)) := by
  rw [Store.createUnifiedJob]
  split
  · next nodes hkind =>
    refine ⟨_, _, rfl, ?_, rfl, fun _ => ⟨rfl, fun hjob => ?_⟩⟩
    · constructor <;> simp [Job.unifiedJobTemplate, hkind, Template.isWorkflow]
    · rw [hkind] at hjob
      exact Template.noConfusion (Option.some.inj hjob)
  · next hkind =>
    split
    · next hsliced =>
      have hallowed := (Bool.and_eq_true_iff.mp hsliced).2
      refine ⟨_, _, rfl, ?_, rfl, fun _ => ⟨rfl, fun _ => by simpa using hallowed⟩⟩
      constructor <;> simp [Job.unifiedJobTemplate, hkind]
    · refine ⟨⟨false, none, some template, launchType, .new⟩, [],
        by simp only [Store.addJob, List.append_nil], ?_, rfl, fun hjob => by contradiction⟩
      constructor <;> simp
  · refine ⟨⟨false, none, none, launchType, .new⟩, [],
      by simp only [Store.addJob, List.append_nil], ?_, rfl, fun hjob => by contradiction⟩
    constructor <;> simp

theorem admissible_createOrphan (store : Store) {launchType : LaunchType}
    (hlaunch : launchType ≠ .workflow) (nodes : List (Option TemplateId)) :
    ∃ row added, store.createOrphan launchType nodes = store.addJob row added ∧
      Admissible store row added ∧ row.launchType = launchType := by
  refine ⟨_, _, rfl, ?_, rfl⟩
  constructor <;> simp [Job.unifiedJobTemplate, hlaunch]

theorem jobs_addJob_length : (store.addJob row added).jobs[store.jobs.length]? = some row := by
  simp [Store.addJob]

theorem jobs_addJob_of_ne (hjob : job ≠ store.jobs.length) :
    (store.addJob row added).jobs[job]? = store.jobs[job]? := by
  cases Nat.lt_or_gt_of_ne hjob with
  | inl hlt => exact List.getElem?_append_left hlt
  | inr hgt =>
    have hlength : (store.jobs ++ [row]).length ≤ job := by
      rw [List.length_append, List.length_singleton]
      exact hgt
    rw [List.getElem?_eq_none hgt.le]
    exact List.getElem?_eq_none hlength

theorem lt_length_of_isWorkflowJob (hjob : store.isWorkflowJob job = true) :
    job < store.jobs.length := by
  obtain ⟨row, hrow, -⟩ := Option.any_eq_true .. |>.mp hjob
  exact (List.getElem?_eq_some_iff.mp hrow).1

theorem lt_length_of_spawnedByWorkflow (hjob : store.spawnedByWorkflow job = true) :
    job < store.jobs.length := by
  obtain ⟨row, hrow, -⟩ := Option.any_eq_true .. |>.mp hjob
  exact (List.getElem?_eq_some_iff.mp hrow).1

structure SameJob (store store' : Store) (job : JobId) : Prop where
  workflow : store'.isWorkflowJob job = store.isWorkflowJob job
  spawned : store'.spawnedByWorkflow job = store.spawnedByWorkflow job
  workflowTemplate : store'.workflowTemplate? job = store.workflowTemplate? job
  template : store'.unifiedJobTemplate? job = store.unifiedJobTemplate? job

theorem sameJob_addJob (hjob : job ≠ store.jobs.length) :
    SameJob store (store.addJob row added) job := by
  constructor <;>
    simp only [Store.isWorkflowJob, Store.spawnedByWorkflow, Store.workflowTemplate?,
      Store.unifiedJobTemplate?, jobs_addJob_of_ne hjob]

theorem spawns_addJob_iff (hrows : Admissible store row added) {parent : JobId} :
    (store.addJob row added).Spawns parent job ↔ store.Spawns parent job := by
  constructor
  · rintro ⟨node, hnode, rfl, hjob⟩
    cases List.mem_append.mp hnode with
    | inl hold => exact ⟨node, hold, rfl, hjob⟩
    | inr hnew =>
      rw [(hrows.node node hnew).2] at hjob
      contradiction
  · rintro ⟨node, hnode, rfl, hjob⟩
    exact ⟨node, List.mem_append_left _ hnode, rfl, hjob⟩

theorem Nested.addJob (hnested : Nested store) (hrows : Admissible store row added) :
    Nested (store.addJob row added) := by
  -- a node that has a job is an old one, and so is its workflow job
  have hlinked : ∀ node ∈ store.nodes ++ added, ∀ job, node.job = some job →
      node ∈ store.nodes := by
    intro node hnode job hjob
    cases List.mem_append.mp hnode with
    | inl hold => exact hold
    | inr hnew =>
      rw [(hrows.node node hnew).2] at hjob
      contradiction
  have hparent : ∀ node ∈ store.nodes,
      SameJob store (store.addJob row added) node.workflowJob := fun node hnode =>
    sameJob_addJob (lt_length_of_isWorkflowJob (hnested.node_parent node hnode)).ne
  have hchild : ∀ node ∈ store.nodes, ∀ job, node.job = some job →
      SameJob store (store.addJob row added) job := fun node hnode job hjob =>
    sameJob_addJob (lt_length_of_spawnedByWorkflow (hnested.node_job node hnode job hjob)).ne
  have hlast : ∀ {node}, node ∈ added → (store.addJob row added).jobs[node.workflowJob]? =
      some row := by
    intro node hnode
    rw [(hrows.node node hnode).1, jobs_addJob_length]
  constructor
  case node_parent =>
    intro node hnode
    cases List.mem_append.mp hnode with
    | inl hold => rw [(hparent node hold).workflow, hnested.node_parent node hold]
    | inr hnew =>
      rw [Store.isWorkflowJob, hlast hnew, Option.any_some, hrows.node_parent node hnew]
  case node_lt =>
    intro node hnode job hjob
    exact hnested.node_lt node (hlinked node hnode job hjob) job hjob
  case node_job =>
    intro node hnode job hjob
    have hold := hlinked node hnode job hjob
    rw [(hchild node hold job hjob).spawned, hnested.node_job node hold job hjob]
  case one_node =>
    refine List.pairwise_append.mpr ⟨hnested.one_node,
      List.pairwise_of_forall_mem_list fun node hnode _ _ job hjob => ?_,
      fun _ _ other hother job _ hjob => ?_⟩
    · rw [(hrows.node node hnode).2] at hjob
      contradiction
    · rw [(hrows.node other hother).2] at hjob
      contradiction
  case slice =>
    intro node hnode hworkflow htemplate
    cases List.mem_append.mp hnode with
    | inl hold =>
      rw [(hparent node hold).workflowTemplate] at hworkflow
      rw [(hparent node hold).template] at htemplate
      exact hnested.slice node hold hworkflow htemplate
    | inr hnew =>
      rw [Store.workflowTemplate?, hlast hnew] at hworkflow
      rw [Store.unifiedJobTemplate?, hlast hnew] at htemplate
      exact hrows.slice node hnew hworkflow htemplate
  case slice_template =>
    intro node hnode
    cases List.mem_append.mp hnode with
    | inl hold => exact hnested.slice_template node hold
    | inr hnew => exact hrows.slice_template node hnew
  case slice_child =>
    intro node hnode hslice job hjob
    have hold := hlinked node hnode job hjob
    rw [(hchild node hold job hjob).workflow, hnested.slice_child node hold hslice job hjob]
  case workflow_template =>
    intro job template htemplate
    by_cases hjob : job = store.jobs.length
    · rw [Store.workflowTemplate?, hjob, jobs_addJob_length] at htemplate
      exact hrows.workflow_template template htemplate
    · rw [(sameJob_addJob hjob).workflowTemplate] at htemplate
      exact hnested.workflow_template job template htemplate
  case slice_job_template =>
    intro job template hworkflow hnone htemplate
    by_cases hjob : job = store.jobs.length
    · rw [Store.workflowTemplate?, hjob, jobs_addJob_length] at hnone
      rw [Store.unifiedJobTemplate?, hjob, jobs_addJob_length] at htemplate
      rw [Store.isWorkflowJob, hjob, jobs_addJob_length] at hworkflow
      exact hrows.slice_job_template template hworkflow hnone htemplate
    · rw [(sameJob_addJob hjob).workflowTemplate] at hnone
      rw [(sameJob_addJob hjob).template] at htemplate
      rw [(sameJob_addJob hjob).workflow] at hworkflow
      exact hnested.slice_job_template job template hworkflow hnone htemplate
  case has_template =>
    intro job hspawned hworkflow
    by_cases hjob : job = store.jobs.length
    · rw [Store.spawnedByWorkflow, hjob, jobs_addJob_length] at hspawned
      rw [Store.isWorkflowJob, hjob, jobs_addJob_length] at hworkflow
      rw [Store.unifiedJobTemplate?, hjob, jobs_addJob_length]
      exact hrows.has_template (of_decide_eq_true hspawned) hworkflow
    · rw [(sameJob_addJob hjob).spawned] at hspawned
      rw [(sameJob_addJob hjob).workflow] at hworkflow
      rw [(sameJob_addJob hjob).template]
      exact hnested.has_template job hspawned hworkflow

/-! ## Links and rows -/

theorem Nested.of_sameJob {store' : Store} (hnested : Nested store)
    (hnodes : store'.nodes = store.nodes) (hjob : ∀ job, SameJob store store' job)
    (hplain : ∀ template : TemplateId, store.templates[template]? = some .jobTemplate →
      store'.templates[template]? = some .jobTemplate)
    (hworkflow : ∀ template : TemplateId,
      (store.templates[template]?).any Template.isWorkflow = true →
      (store'.templates[template]?).any Template.isWorkflow = true) : Nested store' := by
  constructor
  case node_parent =>
    intro node hnode
    rw [(hjob _).workflow]
    exact hnested.node_parent node (hnodes ▸ hnode)
  case node_lt => exact fun node hnode => hnested.node_lt node (hnodes ▸ hnode)
  case node_job =>
    intro node hnode job hlinked
    rw [(hjob _).spawned]
    exact hnested.node_job node (hnodes ▸ hnode) job hlinked
  case one_node => exact hnodes ▸ hnested.one_node
  case slice =>
    intro node hnode hnone htemplate
    rw [(hjob _).workflowTemplate] at hnone
    rw [(hjob _).template] at htemplate
    exact hnested.slice node (hnodes ▸ hnode) hnone htemplate
  case slice_template =>
    intro node hnode hslice template htemplate
    exact hplain template (hnested.slice_template node (hnodes ▸ hnode) hslice template htemplate)
  case slice_child =>
    intro node hnode hslice job hlinked
    rw [(hjob _).workflow]
    exact hnested.slice_child node (hnodes ▸ hnode) hslice job hlinked
  case workflow_template =>
    intro job template htemplate
    rw [(hjob _).workflowTemplate] at htemplate
    exact hworkflow template (hnested.workflow_template job template htemplate)
  case slice_job_template =>
    intro job template hisWorkflow hnone htemplate
    rw [(hjob _).workflow] at hisWorkflow
    rw [(hjob _).workflowTemplate] at hnone
    rw [(hjob _).template] at htemplate
    exact hplain template (hnested.slice_job_template job template hisWorkflow hnone htemplate)
  case has_template =>
    intro job hspawned hisWorkflow
    rw [(hjob _).spawned] at hspawned
    rw [(hjob _).workflow] at hisWorkflow
    rw [(hjob _).template]
    exact hnested.has_template job hspawned hisWorkflow

def Store.link (store : Store) (index : ℕ) (node : WorkflowJobNode) (job : JobId) : Store :=
  { store with nodes := store.nodes.set index { node with job := some job } }

section Link

variable {index : ℕ} {node : WorkflowJobNode}

theorem mem_nodes_link {found : WorkflowJobNode} (hfound : found ∈ (store.link index node job).nodes) :
    found ∈ store.nodes ∨ found = { node with job := some job } :=
  List.mem_or_eq_of_mem_set hfound

theorem spawns_link {parent : JobId} (hspawns : (store.link index node job).Spawns parent other) :
    store.Spawns parent other ∨ (parent = node.workflowJob ∧ other = job) := by
  obtain ⟨found, hfound, rfl, hjob⟩ := hspawns
  cases mem_nodes_link hfound with
  | inl hold => exact .inl ⟨found, hold, rfl, hjob⟩
  | inr hnew =>
    subst hnew
    exact .inr ⟨rfl, (Option.some.inj hjob).symm⟩

theorem Nested.link (hnested : Nested store) (hnode : node ∈ store.nodes)
    (hfresh : ∀ other ∈ store.nodes, other.job ≠ some job) (hlt : node.workflowJob < job)
    (hspawned : store.spawnedByWorkflow job = true)
    (hslice : node.jobSlice = true → store.isWorkflowJob job = false) :
    Nested (store.link index node job) := by
  constructor
  case node_parent =>
    intro found hfound
    cases mem_nodes_link hfound with
    | inl hold => exact hnested.node_parent found hold
    | inr hnew => exact hnew ▸ hnested.node_parent node hnode
  case node_lt =>
    intro found hfound other hother
    cases mem_nodes_link hfound with
    | inl hold => exact hnested.node_lt found hold other hother
    | inr hnew =>
      subst hnew
      exact Option.some.inj hother ▸ hlt
  case node_job =>
    intro found hfound other hother
    cases mem_nodes_link hfound with
    | inl hold => exact hnested.node_job found hold other hother
    | inr hnew =>
      subst hnew
      exact Option.some.inj hother ▸ hspawned
  case one_node =>
    by_cases hindex : index < store.nodes.length
    · refine (List.set_perm_cons_eraseIdx hindex _).symm.pairwise
        (List.pairwise_cons.mpr ⟨fun other hother => ?_,
          hnested.one_node.sublist (List.eraseIdx_sublist _ _)⟩) symm
      intro taken htaken hsame
      obtain rfl : job = taken := Option.some.inj htaken
      exact hfresh other (List.mem_of_mem_eraseIdx hother) hsame
    · rw [Store.link, List.set_eq_of_length_le (Nat.not_lt.mp hindex)]
      exact hnested.one_node
  case slice =>
    intro found hfound
    cases mem_nodes_link hfound with
    | inl hold => exact hnested.slice found hold
    | inr hnew => exact hnew ▸ hnested.slice node hnode
  case slice_template =>
    intro found hfound
    cases mem_nodes_link hfound with
    | inl hold => exact hnested.slice_template found hold
    | inr hnew => exact hnew ▸ hnested.slice_template node hnode
  case slice_child =>
    intro found hfound hsliced other hother
    cases mem_nodes_link hfound with
    | inl hold => exact hnested.slice_child found hold hsliced other hother
    | inr hnew =>
      subst hnew
      exact Option.some.inj hother ▸ hslice hsliced
  case workflow_template => exact hnested.workflow_template
  case slice_job_template => exact hnested.slice_job_template
  case has_template => exact hnested.has_template

end Link

theorem jobs_setStatus (store : Store) (job other : JobId) (status : JobStatus) :
    (store.setStatus job status).jobs[other]? =
      if job = other then (store.jobs[other]?).map fun row => { row with status := status }
      else store.jobs[other]? := by
  simp only [Store.setStatus, List.getElem?_modify]
  split <;> simp_all

theorem sameJob_setStatus (store : Store) (job other : JobId) (status : JobStatus) :
    SameJob store (store.setStatus job status) other := by
  constructor <;>
    simp only [Store.isWorkflowJob, Store.spawnedByWorkflow, Store.workflowTemplate?,
      Store.unifiedJobTemplate?, jobs_setStatus] <;>
    split <;> cases store.jobs[other]? <;> rfl

theorem Nested.setStatus (hnested : Nested store) (job : JobId) (status : JobStatus) :
    Nested (store.setStatus job status) :=
  hnested.of_sameJob rfl (fun other => sameJob_setStatus store job other status)
    (fun _ => id) fun _ => id

theorem Nested.signalStart (hnested : Nested store) : Nested (store.signalStart job) :=
  (hnested.setStatus job .pending).of_sameJob rfl (fun _ => ⟨rfl, rfl, rfl, rfl⟩)
    (fun _ => id) fun _ => id

/-! ## Started jobs -/

/-- A workflow job that was started repeats no template from above it, and a job
of a workflow that was not started has ended. -/
structure NoRecursion (store : Store) : Prop where
  nested : Nested store
  started_lt : ∀ job ∈ store.started, job < store.jobs.length
  unstarted : ∀ job, store.spawnedByWorkflow job = true → store.isActive job = true →
    job ∈ store.started
  distinct : ∀ ancestor job template, TransGen store.Spawns ancestor job →
    job ∈ store.started → store.isWorkflowJob job = true →
    store.unifiedJobTemplate? job = some template →
      store.unifiedJobTemplate? ancestor ≠ some template

theorem Nested.spawned_of_transGen (hnested : Nested store) {ancestor : JobId}
    (hpath : TransGen store.Spawns ancestor job) :
    store.spawnedByWorkflow job = true ∧ store.isWorkflowJob ancestor = true ∧
      ancestor < job := by
  induction hpath with
  | single hspawns =>
    obtain ⟨hspawned, hworkflow⟩ := hnested.spawned_of_spawns hspawns
    exact ⟨hspawned, hworkflow, hnested.lt_of_spawns hspawns⟩
  | tail _ hspawns ih =>
    exact ⟨(hnested.spawned_of_spawns hspawns).1, ih.2.1,
      ih.2.2.trans (hnested.lt_of_spawns hspawns)⟩

theorem isActive_setStatus (store : Store) (job other : JobId) (status : JobStatus) :
    (store.setStatus job status).isActive other = true →
      (job = other ∧ status.Active) ∨ (job ≠ other ∧ store.isActive other = true) := by
  rw [Store.isActive, jobs_setStatus]
  split
  · next hsame =>
    intro hactive
    obtain ⟨row, hrow, hstatus⟩ := Option.any_eq_true .. |>.mp hactive
    obtain ⟨old, -, rfl⟩ := Option.map_eq_some_iff.mp hrow
    exact .inl ⟨hsame, of_decide_eq_true hstatus⟩
  · next hother => exact fun hactive => .inr ⟨hother, hactive⟩

namespace NoRecursion

theorem ofTemplates (templates : List Template) : NoRecursion (.ofTemplates templates) where
  nested := by
    constructor <;>
      simp [Store.ofTemplates, Store.isWorkflowJob, Store.spawnedByWorkflow,
        Store.workflowTemplate?, Store.unifiedJobTemplate?]
  started_lt := nofun
  unstarted := by simp [Store.ofTemplates, Store.spawnedByWorkflow]
  distinct := nofun

variable (hstore : NoRecursion store)

include hstore

theorem withTemplates {templates : List Template}
    (hplain : ∀ template : TemplateId, store.templates[template]? = some .jobTemplate →
      templates[template]? = some .jobTemplate)
    (hworkflow : ∀ template : TemplateId,
      (store.templates[template]?).any Template.isWorkflow = true →
      (templates[template]?).any Template.isWorkflow = true) :
    NoRecursion { store with templates := templates } where
  nested := hstore.nested.of_sameJob rfl (fun _ => ⟨rfl, rfl, rfl, rfl⟩) hplain hworkflow
  started_lt := hstore.started_lt
  unstarted := hstore.unstarted
  distinct := hstore.distinct

theorem distinct_addJob (hrows : Admissible store row added) (ancestor job : JobId)
    (template : TemplateId) (hpath : TransGen (store.addJob row added).Spawns ancestor job)
    (hstarted : job ∈ store.started)
    (hworkflow : (store.addJob row added).isWorkflowJob job = true)
    (htemplate : (store.addJob row added).unifiedJobTemplate? job = some template) :
    (store.addJob row added).unifiedJobTemplate? ancestor ≠ some template := by
  have hsame : (store.addJob row added).Spawns = store.Spawns := by
    funext parent child
    exact propext (spawns_addJob_iff hrows)
  rw [hsame] at hpath
  have hlt := hstore.started_lt job hstarted
  have hjob : SameJob store (store.addJob row added) job := sameJob_addJob hlt.ne
  have hancestor : SameJob store (store.addJob row added) ancestor :=
    sameJob_addJob ((hstore.nested.spawned_of_transGen hpath).2.2.trans hlt).ne
  rw [hjob.workflow] at hworkflow
  rw [hjob.template] at htemplate
  rw [hancestor.template]
  exact hstore.distinct ancestor job template hpath hstarted hworkflow htemplate

theorem addJob (hrows : Admissible store row added) (hlaunch : row.launchType ≠ .workflow) :
    NoRecursion (store.addJob row added) where
  nested := hstore.nested.addJob hrows
  started_lt job hstarted := by
    rw [Store.addJob, List.length_append]
    exact Nat.lt_add_right _ (hstore.started_lt job hstarted)
  unstarted job hspawned hactive := by
    by_cases hjob : job = store.jobs.length
    · rw [Store.spawnedByWorkflow, hjob, jobs_addJob_length] at hspawned
      exact absurd (of_decide_eq_true hspawned) hlaunch
    · rw [(sameJob_addJob hjob).spawned] at hspawned
      rw [Store.isActive, jobs_addJob_of_ne hjob] at hactive
      exact hstore.unstarted job hspawned hactive
  distinct := hstore.distinct_addJob hrows

theorem setStatus {status : JobStatus}
    (hstatus : status.Active → store.spawnedByWorkflow job = true → job ∈ store.started) :
    NoRecursion (store.setStatus job status) where
  nested := hstore.nested.setStatus job status
  started_lt other hstarted := by
    simp only [Store.setStatus, List.length_modify]
    exact hstore.started_lt other hstarted
  unstarted other hspawned hactive := by
    rw [(sameJob_setStatus ..).spawned] at hspawned
    rcases isActive_setStatus store job other status hactive with ⟨rfl, hnew⟩ | ⟨-, hold⟩
    · exact hstatus hnew hspawned
    · exact hstore.unstarted other hspawned hold
  distinct ancestor other template hpath hstarted hworkflow htemplate := by
    rw [(sameJob_setStatus ..).workflow] at hworkflow
    rw [(sameJob_setStatus ..).template] at htemplate ⊢
    exact hstore.distinct ancestor other template hpath hstarted hworkflow htemplate

theorem signalStart (hlt : job < store.jobs.length)
    (hdistinct : ∀ ancestor template, TransGen store.Spawns ancestor job →
      store.isWorkflowJob job = true → store.unifiedJobTemplate? job = some template →
        store.unifiedJobTemplate? ancestor ≠ some template) :
    NoRecursion (store.signalStart job) where
  nested := hstore.nested.signalStart
  started_lt other hstarted := by
    simp only [Store.signalStart, Store.setStatus, List.length_modify]
    cases List.mem_cons.mp hstarted with
    | inl hsame => exact hsame ▸ hlt
    | inr hold => exact hstore.started_lt other hold
  unstarted other hspawned hactive := by
    have hspawned' : store.spawnedByWorkflow other = true :=
      (sameJob_setStatus store job other .pending).spawned ▸ hspawned
    rcases isActive_setStatus store job other .pending hactive with ⟨rfl, -⟩ | ⟨-, hold⟩
    · exact List.mem_cons_self
    · exact List.mem_cons_of_mem _ (hstore.unstarted other hspawned' hold)
  distinct ancestor other template hpath hstarted hworkflow htemplate := by
    have hsame := sameJob_setStatus store job other .pending
    have hworkflow' : store.isWorkflowJob other = true := hsame.workflow ▸ hworkflow
    have htemplate' : store.unifiedJobTemplate? other = some template := hsame.template ▸ htemplate
    have hancestor : (store.signalStart job).unifiedJobTemplate? ancestor =
        store.unifiedJobTemplate? ancestor := (sameJob_setStatus store job ancestor .pending).template
    rw [hancestor]
    cases List.mem_cons.mp hstarted with
    | inl hself =>
      subst hself
      exact hdistinct ancestor template hpath hworkflow' htemplate'
    | inr hold => exact hstore.distinct ancestor other template hpath hold hworkflow' htemplate'

theorem signalStart_of_active (hactive : store.isActive job = true) :
    NoRecursion (store.signalStart job) := by
  obtain ⟨row, hrow, -⟩ := Option.any_eq_true .. |>.mp hactive
  refine hstore.signalStart (List.getElem?_eq_some_iff.mp hrow).1
    fun ancestor template hpath hworkflow htemplate => ?_
  have hspawned := (hstore.nested.spawned_of_transGen hpath).1
  exact hstore.distinct ancestor job template hpath (hstore.unstarted job hspawned hactive)
    hworkflow htemplate

end NoRecursion

/-! ## Spawning the job of a node -/

section Spawn

variable {index : ℕ} {node : WorkflowJobNode} {template : TemplateId}

theorem transGen_of_link {ancestor : JobId} (hnested : Nested (store.link index node job))
    (hpath : TransGen (store.link index node job).Spawns ancestor other) (hlt : other < job) :
    TransGen store.Spawns ancestor other := by
  have hold : ∀ parent child, (store.link index node job).Spawns parent child → child < job →
      store.Spawns parent child := by
    intro parent child hspawns hchild
    cases spawns_link hspawns with
    | inl hold => exact hold
    | inr hnew => exact absurd hnew.2 hchild.ne
  induction hpath with
  | single hspawns => exact .single (hold _ _ hspawns hlt)
  | tail _ hspawns ih =>
    exact .tail (ih ((hnested.lt_of_spawns hspawns).trans hlt)) (hold _ _ hspawns hlt)

theorem Nested.linked (hnested : Nested store) (hnode : node ∈ store.nodes)
    (hrows : Admissible store row added) (hlaunch : row.launchType = .workflow)
    (hslice : node.jobSlice = true → row.isWorkflowJob = false) :
    Nested ((store.addJob row added).link index node store.jobs.length) := by
  refine (hnested.addJob hrows).link (List.mem_append_left _ hnode) ?_ ?_ ?_ ?_
  · intro other hother hjob
    cases List.mem_append.mp hother with
    | inl hold =>
      exact (lt_length_of_spawnedByWorkflow (hnested.node_job other hold _ hjob)).false
    | inr hnew =>
      rw [(hrows.node other hnew).2] at hjob
      contradiction
  · exact lt_length_of_isWorkflowJob (hnested.node_parent node hnode)
  · rw [Store.spawnedByWorkflow, jobs_addJob_length, Option.any_some, hlaunch]
    rfl
  · rw [Store.isWorkflowJob, jobs_addJob_length]
    exact hslice

theorem NoRecursion.linked_failed (hstore : NoRecursion store)
    (hrows : Admissible store row added)
    (hnested : Nested ((store.addJob row added).link index node store.jobs.length)) :
    NoRecursion (((store.addJob row added).link index node store.jobs.length).setStatus
      store.jobs.length .failed) where
  nested := hnested.setStatus _ _
  started_lt job hstarted := by
    simp only [Store.setStatus, Store.link, Store.addJob, List.length_modify, List.length_append]
    exact Nat.lt_add_right _ (hstore.started_lt job hstarted)
  unstarted job hspawned hactive := by
    rw [(sameJob_setStatus ..).spawned] at hspawned
    rcases isActive_setStatus _ _ _ _ hactive with ⟨-, hfailed⟩ | ⟨hne, hold⟩
    · exact absurd hfailed (by decide)
    · have hsame : SameJob store (store.addJob row added) job := sameJob_addJob (Ne.symm hne)
      have hrow : (store.addJob row added).jobs[job]? = store.jobs[job]? :=
        jobs_addJob_of_ne (Ne.symm hne)
      refine hstore.unstarted job (hsame.spawned ▸ hspawned) ?_
      rw [Store.isActive, ← hrow]
      exact hold
  distinct ancestor job template hpath hstarted hworkflow htemplate := by
    rw [(sameJob_setStatus ..).workflow] at hworkflow
    rw [(sameJob_setStatus ..).template] at htemplate ⊢
    exact hstore.distinct_addJob hrows ancestor job template
      (transGen_of_link hnested hpath (hstore.started_lt job hstarted)) hstarted hworkflow htemplate

theorem signalStart_setStatus (store : Store) (job : JobId) (status : JobStatus) :
    (store.setStatus job status).signalStart job = store.signalStart job := by
  simp only [Store.signalStart, Store.setStatus, List.modify_modify_eq]
  rfl

theorem NoRecursion.spawn (hstore : NoRecursion store) (hnode : node ∈ store.nodes)
    (htemplate : node.unifiedJobTemplate = some template) (launch : Store.Launch) :
    NoRecursion (store.spawn index node template launch) := by
  obtain ⟨row, added, hcreated, hrows, hlaunch, hkind⟩ :=
    admissible_createUnifiedJob store template .workflow node.jobSlice launch.sliceCount
  have hslice : node.jobSlice = true → row.isWorkflowJob = false := by
    intro hsliced
    by_contra hworkflow
    have hprevented := (hkind (Bool.not_eq_false _ ▸ hworkflow)).2
      (hstore.nested.slice_template node hnode hsliced template htemplate)
    rw [hsliced] at hprevented
    contradiction
  have hnested : Nested ((store.addJob row added).link index node store.jobs.length) :=
    hstore.nested.linked hnode hrows hlaunch hslice
  have hfailed := hstore.linked_failed hrows hnested
  rw [Store.spawn, hcreated]
  split
  · next hstarts =>
    change NoRecursion (((store.addJob row added).link index node store.jobs.length).signalStart
      store.jobs.length)
    rw [← signalStart_setStatus _ _ .failed]
    refine hfailed.signalStart (by simp [Store.setStatus, Store.link, Store.addJob])
      fun ancestor found hpath hworkflow hfound => ?_
    rw [(sameJob_setStatus ..).workflow] at hworkflow
    rw [(sameJob_setStatus ..).template] at hfound ⊢
    have hrow : row.isWorkflowJob = true ∧ row.unifiedJobTemplate = some found := by
      rw [Store.isWorkflowJob, Store.link, jobs_addJob_length] at hworkflow
      rw [Store.unifiedJobTemplate?, Store.link, jobs_addJob_length] at hfound
      exact ⟨hworkflow, hfound⟩
    obtain rfl : template = found := Option.some.inj ((hkind hrow.1).1.symm.trans hrow.2)
    have htest := (Bool.and_eq_true_iff.mp (Bool.and_eq_true_iff.mp hstarts).1).1
    exact hnested.template_ne_of_not_recursive hworkflow
      ((Bool.not_eq_true' _).mp htest) hpath
  · exact hfailed

end Spawn

/-! ## Runs -/

theorem NoRecursion.step (hstore : NoRecursion store) {event : Store.Event} {store' : Store}
    (hstep : store.step event = some store') : NoRecursion store' := by
  cases event with
  | createTemplate template =>
    obtain rfl := Option.some.inj hstep
    refine hstore.withTemplates (fun template hplain => ?_) fun template hworkflow => ?_
    · rw [List.getElem?_append_left (List.getElem?_eq_some_iff.mp hplain).1, hplain]
    · obtain ⟨found, hfound, -⟩ := Option.any_eq_true .. |>.mp hworkflow
      rwa [List.getElem?_append_left (List.getElem?_eq_some_iff.mp hfound).1]
  | editWorkflow template nodes =>
    obtain ⟨hkind, hstep⟩ := Option.ite_none_right_eq_some.mp hstep
    obtain rfl := Option.some.inj hstep
    refine hstore.withTemplates (fun other hplain => ?_) fun other hworkflow => ?_
    · rw [List.getElem?_set_ne, hplain]
      rintro rfl
      rw [hplain] at hkind
      contradiction
    · rw [List.getElem?_set]
      split
      · next hsame =>
        subst hsame
        obtain ⟨found, hfound, -⟩ := Option.any_eq_true .. |>.mp hworkflow
        rw [if_pos (List.getElem?_eq_some_iff.mp hfound).1]
        rfl
      · exact hworkflow
  | launch template launchType sliceCount =>
    obtain ⟨hlaunch, hstep⟩ := Option.ite_none_left_eq_some.mp hstep
    obtain rfl := Option.some.inj hstep
    obtain ⟨row, added, hcreated, hrows, hrow, -⟩ :=
      admissible_createUnifiedJob store template launchType false sliceCount
    exact hcreated ▸ hstore.addJob hrows (hrow ▸ hlaunch)
  | launchOrphan launchType nodes =>
    obtain ⟨hlaunch, hstep⟩ := Option.ite_none_left_eq_some.mp hstep
    obtain rfl := Option.some.inj hstep
    obtain ⟨row, added, hcreated, hrows, hrow⟩ := admissible_createOrphan store hlaunch nodes
    exact hcreated ▸ hstore.addJob hrows (hrow ▸ hlaunch)
  | signalStart job =>
    obtain ⟨row, hrow, hstep⟩ := Option.bind_eq_some_iff.mp hstep
    obtain ⟨hstatus, hstep⟩ := Option.ite_none_right_eq_some.mp hstep
    obtain rfl := Option.some.inj hstep
    refine hstore.signalStart_of_active ?_
    have hactive : row.status.Active := by
      simp only [List.mem_cons, List.not_mem_nil, or_false] at hstatus
      rcases hstatus with hnew | hwaiting
      · rw [hnew]; decide
      · rw [hwaiting]; decide
    rw [Store.isActive, hrow, Option.any_some, decide_eq_true hactive]
  | spawn index launch =>
    obtain ⟨node, hnode, hstep⟩ := Option.bind_eq_some_iff.mp hstep
    split at hstep
    · next template hnone htemplate =>
      obtain ⟨-, hstep⟩ := Option.ite_none_right_eq_some.mp hstep
      obtain rfl := Option.some.inj hstep
      exact hstore.spawn (List.mem_of_getElem? hnode) htemplate launch
    · contradiction
  | updateStatus job status =>
    obtain ⟨row, hrow, hstep⟩ := Option.bind_eq_some_iff.mp hstep
    obtain ⟨hstatus, hstep⟩ := Option.ite_none_right_eq_some.mp hstep
    obtain rfl := Option.some.inj hstep
    refine hstore.setStatus fun hactive hspawned => hstore.unstarted job hspawned ?_
    have hold : row.status.Active := by
      rcases hstatus with hmoved | ⟨-, hended⟩
      · exact List.mem_cons_of_mem _ hmoved
      · exact absurd hactive hended
    rw [Store.isActive, hrow, Option.any_some, decide_eq_true hold]

theorem noRecursion_of_run {templates : List Template}
    (hrun : Run Store.step (fun _ _ => True) (.ofTemplates templates) store) :
    NoRecursion store :=
  hrun.invariant NoRecursion (.ofTemplates templates) fun _ _ _ hstore _ hstep =>
    hstore.step hstep

/-! ## Chains of nested workflow jobs -/

/-- A workflow job, started workflow jobs below it, each spawned by a node of the
one before. -/
structure Chain (store : Store) (top : JobId) (nested : List JobId) : Prop where
  top_workflow : store.isWorkflowJob top = true
  spawns : (top :: nested).IsChain store.Spawns
  started : ∀ job ∈ nested, job ∈ store.started ∧ store.isWorkflowJob job = true

structure DistinctTemplates (store : Store) (top : JobId) (nested : List JobId) : Prop where
  nodup : ((top :: nested).filterMap store.unifiedJobTemplate?).Nodup
  length_le : nested.length ≤ store.templates.length
  length_lt : store.unifiedJobTemplate? top ≠ none → nested.length < store.templates.length

theorem Nested.template_lt (hnested : Nested store) {template : TemplateId}
    (hworkflow : store.isWorkflowJob job = true)
    (htemplate : store.unifiedJobTemplate? job = some template) :
    template < store.templates.length := by
  cases hown : store.workflowTemplate? job with
  | none =>
    have hkind := hnested.slice_job_template job template hworkflow hown htemplate
    exact (List.getElem?_eq_some_iff.mp hkind).1
  | some own =>
    obtain ⟨row, hrow, hrowTemplate⟩ := Option.bind_eq_some_iff.mp hown
    rw [Store.unifiedJobTemplate?, hrow, Option.bind_some, Job.unifiedJobTemplate, hrowTemplate,
      Option.some_or] at htemplate
    obtain ⟨found, hfound, -⟩ :=
      Option.any_eq_true .. |>.mp (hnested.workflow_template job own hown)
    exact Option.some.inj htemplate ▸ (List.getElem?_eq_some_iff.mp hfound).1

theorem NoRecursion.distinctTemplates (hstore : NoRecursion store) {top : JobId}
    {nested : List JobId} (hchain : Chain store top nested) :
    DistinctTemplates store top nested := by
  have hpaths : (top :: nested).Pairwise (TransGen store.Spawns) :=
    List.isChain_iff_pairwise.mp (hchain.spawns.imp fun _ _ hspawns => .single hspawns)
  obtain ⟨htop, hnested⟩ := List.pairwise_cons.mp hpaths
  have hdiffer : ∀ ancestor, ∀ job ∈ nested, TransGen store.Spawns ancestor job →
      ∀ template, store.unifiedJobTemplate? ancestor = some template →
        ∀ other, store.unifiedJobTemplate? job = some other → template ≠ other := by
    rintro ancestor job hjob hpath template htemplate _ hother rfl
    obtain ⟨hstarted, hworkflow⟩ := hchain.started job hjob
    exact hstore.distinct ancestor job template hpath hstarted hworkflow hother htemplate
  have hnodup : ((top :: nested).filterMap store.unifiedJobTemplate?).Nodup := by
    refine List.pairwise_filterMap.mpr (List.pairwise_cons.mpr ⟨fun job hjob => ?_, ?_⟩)
    · exact hdiffer top job hjob (htop job hjob)
    · exact hnested.imp_of_mem fun _ hjob hpath => hdiffer _ _ hjob hpath
  have hcount : (nested.filterMap store.unifiedJobTemplate?).length = nested.length := by
    refine List.filterMap_length_eq_length.mpr fun job hjob => ?_
    obtain ⟨parent, hspawned⟩ : ∃ parent, TransGen store.Spawns parent job := ⟨top, htop job hjob⟩
    exact hstore.nested.has_template job (hstore.nested.spawned_of_transGen hspawned).1
      (hchain.started job hjob).2
  have hbound : ((top :: nested).filterMap store.unifiedJobTemplate?).length ≤
      store.templates.length := by
    have hsubset : (top :: nested).filterMap store.unifiedJobTemplate? ⊆
        List.range store.templates.length := by
      intro template hmem
      obtain ⟨job, hjob, htemplate⟩ := List.mem_filterMap.mp hmem
      refine List.mem_range.mpr (hstore.nested.template_lt ?_ htemplate)
      cases List.mem_cons.mp hjob with
      | inl hself => exact hself ▸ hchain.top_workflow
      | inr hbelow => exact (hchain.started job hbelow).2
    simpa using (hnodup.subperm hsubset).length_le
  rw [List.filterMap_cons] at hbound
  refine ⟨hnodup, ?_, fun hhas => ?_⟩
  · split at hbound
    · exact hcount ▸ hbound
    · rw [List.length_cons, hcount] at hbound
      exact (Nat.lt_succ_self _).le.trans hbound
  · obtain ⟨template, htemplate⟩ := Option.ne_none_iff_exists'.mp hhas
    simp only [htemplate, List.length_cons, hcount] at hbound
    exact hbound

/-- No recursive workflow is started, and the walk to the ancestors of a job ends
in every store, cyclic or not. -/
theorem no_recursive_workflow {templates : List Template}
    (hrun : Run Store.step (fun _ _ => True) (.ofTemplates templates) store) :
    (∀ top nested, Chain store top nested → DistinctTemplates store top nested) ∧
      ∀ (other : Store) (job : JobId), ∃ result, other.getAncestorWorkflows job = some result ∧
        ∀ fuel, other.jobs.length < fuel →
          other.ancestorLoop fuel [job] [] (other.getWorkflowJob job) = some result :=
  ⟨fun _ _ hchain => (noRecursion_of_run hrun).distinctTemplates hchain,
    getAncestorWorkflows_ends⟩

/-- Two workflows that contain each other: the third job would repeat the first
template and is not started. -/
def mutualRun : List Store.Event :=
  let launch : Store.Launch := ⟨1, true, true⟩
  [.launch 0 .manual 1, .signalStart 0, .updateStatus 0 .running, .spawn 0 launch,
    .updateStatus 1 .running, .spawn 1 launch]

theorem no_recursive_workflow_mutual :
    ∃ store, Run Store.step (fun _ _ => True)
        (.ofTemplates [.workflow [some 1], .workflow [some 0]]) store ∧
      Chain store 0 [1] ∧ store.Spawns 1 2 ∧ 2 ∉ store.started ∧
        DistinctTemplates store 0 [1] := by
  have hevents : (mutualRun.foldlM Store.step
      (.ofTemplates [.workflow [some 1], .workflow [some 0]])).any (fun store =>
        store.isWorkflowJob 0 && store.isWorkflowJob 1 &&
          decide (store.Spawns 0 1 ∧ 1 ∈ store.started ∧ store.Spawns 1 2 ∧
            2 ∉ store.started)) = true := by decide
  obtain ⟨store, hrun, htest⟩ := exists_run_of_any _ hevents
  simp only [Bool.and_eq_true, decide_eq_true_eq] at htest
  obtain ⟨⟨htop, hworkflow⟩, hspawns, hstarted, hthird, hrefused⟩ := htest
  have hchain : Chain store 0 [1] := by
    refine ⟨htop, .cons_cons hspawns (.singleton 1), fun job hjob => ?_⟩
    rw [List.mem_singleton.mp hjob]
    exact ⟨hstarted, hworkflow⟩
  exact ⟨store, hrun, hchain, hthird, hrefused, (no_recursive_workflow hrun).1 0 [1] hchain⟩

end Forail.NestedWorkflows
