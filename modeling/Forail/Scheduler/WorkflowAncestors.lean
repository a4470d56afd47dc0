import Mathlib.Data.Finset.Card
import Mathlib.Data.List.Pairwise
import Mathlib.Data.List.Perm.Basic
import Mathlib.Logic.Relation
import Forail.Scheduler.NestedWorkflows

/-!
# The workflow jobs above a job

A node links the job it spawned to its workflow job.  The walk of
`get_ancestor_workflows` ends in every store.  In a store in which the links were
made by the workflow manager it finds the templates of all workflow jobs above
a workflow job.
-/

namespace Forail.NestedWorkflows

open Relation
open Forail.UnifiedJobs

def Job.unifiedJobTemplate (job : Job) : Option TemplateId :=
  job.workflowJobTemplate.or job.jobTemplate

namespace Store

def isWorkflowJob (store : Store) (job : JobId) : Bool :=
  (store.jobs[job]?).any Job.isWorkflowJob

def spawnedByWorkflow (store : Store) (job : JobId) : Bool :=
  (store.jobs[job]?).any fun row => decide (row.launchType = .workflow)

def unifiedJobTemplate? (store : Store) (job : JobId) : Option TemplateId :=
  (store.jobs[job]?).bind Job.unifiedJobTemplate

def isActive (store : Store) (job : JobId) : Bool :=
  (store.jobs[job]?).any fun row => decide row.status.Active

def Spawns (store : Store) (parent job : JobId) : Prop :=
  ∃ node ∈ store.nodes, node.workflowJob = parent ∧ node.job = some job

instance (store : Store) (parent job : JobId) : Decidable (store.Spawns parent job) :=
  inferInstanceAs (Decidable (∃ node ∈ store.nodes, _))

end Store

variable {store : Store} {job : JobId}

theorem lt_length_of_workflowTemplate {template : TemplateId}
    (htemplate : store.workflowTemplate? job = some template) : job < store.jobs.length := by
  obtain ⟨row, hrow, -⟩ := Option.bind_eq_some_iff.mp htemplate
  exact (List.getElem?_eq_some_iff.mp hrow).1

/-! ## The walk ends -/

theorem ancestorLoop_ends (unseen : Finset JobId) (wjIds : List JobId)
    (ancestors : List TemplateId) (wj : Option JobId)
    (hunseen : ∀ job < store.jobs.length, job ∉ wjIds → job ∈ unseen) :
    ∃ result, ∀ fuel, unseen.card < fuel →
      store.ancestorLoop fuel wjIds ancestors wj = some result := by
  induction unseen using Finset.strongInduction generalizing wjIds ancestors wj with
  | _ unseen ih =>
    have hround : ∀ result, (∀ fuel,
        store.ancestorLoop (fuel + 1) wjIds ancestors wj = some result) →
        ∃ result, ∀ fuel, unseen.card < fuel →
          store.ancestorLoop fuel wjIds ancestors wj = some result := by
      intro result hresult
      refine ⟨result, fun fuel hfuel => ?_⟩
      obtain ⟨fuel, rfl⟩ := Nat.exists_eq_add_one.mpr (Nat.zero_lt_of_lt hfuel)
      exact hresult fuel
    cases wj with
    | none => exact hround ancestors fun _ => rfl
    | some wj =>
      cases htemplate : store.workflowTemplate? wj with
      | none => exact hround ancestors fun _ => by simp [Store.ancestorLoop, htemplate]
      | some template =>
        by_cases hseen : wj ∈ wjIds
        · exact hround ancestors fun _ => by simp [Store.ancestorLoop, htemplate, hseen]
        · have hmem : wj ∈ unseen := hunseen wj (lt_length_of_workflowTemplate htemplate) hseen
          obtain ⟨result, hresult⟩ := ih (unseen.erase wj) (Finset.erase_ssubset hmem)
            (wj :: wjIds) (ancestors ++ [template]) (store.getWorkflowJob wj) (by
              intro job hjob hnew
              simp only [List.mem_cons, not_or] at hnew
              exact Finset.mem_erase.mpr ⟨hnew.1, hunseen job hjob hnew.2⟩)
          refine ⟨result, fun fuel hfuel => ?_⟩
          obtain ⟨fuel, rfl⟩ := Nat.exists_eq_add_one.mpr (Nat.zero_lt_of_lt hfuel)
          have hfuel' : (unseen.erase wj).card < fuel := by
            rw [Finset.card_erase_of_mem hmem]
            have hpos := Finset.card_pos.mpr ⟨wj, hmem⟩
            omega
          simp only [Store.ancestorLoop, htemplate, if_neg hseen]
          exact hresult fuel hfuel'

theorem getAncestorWorkflows_ends (store : Store) (job : JobId) :
    ∃ result, store.getAncestorWorkflows job = some result ∧
      ∀ fuel, store.jobs.length < fuel →
        store.ancestorLoop fuel [job] [] (store.getWorkflowJob job) = some result := by
  obtain ⟨result, hresult⟩ := ancestorLoop_ends (Finset.range store.jobs.length) [job] []
    (store.getWorkflowJob job) fun job hjob _ => Finset.mem_range.mpr hjob
  rw [Finset.card_range] at hresult
  exact ⟨result, hresult _ (Nat.lt_succ_self _), hresult⟩

/-! ## Stores of the workflow manager -/

def WorkflowJobNode.Apart (node other : WorkflowJobNode) : Prop :=
  ∀ job, node.job = some job → other.job ≠ some job

instance : Std.Symm WorkflowJobNode.Apart where
  symm _ _ hapart job hleft hright := hapart job hright hleft

/-- What the creation and the linking of jobs keep.  A workflow job without a
workflow template holds the slices of a job, and what its nodes spawn is not
sliced again. -/
structure Nested (store : Store) : Prop where
  node_parent : ∀ node ∈ store.nodes, store.isWorkflowJob node.workflowJob = true
  node_lt : ∀ node ∈ store.nodes, ∀ job, node.job = some job → node.workflowJob < job
  node_job : ∀ node ∈ store.nodes, ∀ job, node.job = some job →
    store.spawnedByWorkflow job = true
  one_node : store.nodes.Pairwise WorkflowJobNode.Apart
  slice : ∀ node ∈ store.nodes, store.workflowTemplate? node.workflowJob = none →
    (store.unifiedJobTemplate? node.workflowJob).isSome = true → node.jobSlice = true
  slice_template : ∀ node ∈ store.nodes, node.jobSlice = true →
    ∀ template, node.unifiedJobTemplate = some template →
      store.templates[template]? = some .jobTemplate
  slice_child : ∀ node ∈ store.nodes, node.jobSlice = true →
    ∀ job, node.job = some job → store.isWorkflowJob job = false
  workflow_template : ∀ job template, store.workflowTemplate? job = some template →
    (store.templates[template]?).any Template.isWorkflow = true
  slice_job_template : ∀ job template, store.isWorkflowJob job = true →
    store.workflowTemplate? job = none → store.unifiedJobTemplate? job = some template →
      store.templates[template]? = some .jobTemplate
  has_template : ∀ job, store.spawnedByWorkflow job = true → store.isWorkflowJob job = true →
    (store.unifiedJobTemplate? job).isSome = true

namespace Nested

variable (hnested : Nested store)

include hnested

theorem node_unique {node other : WorkflowJobNode} (hnode : node ∈ store.nodes)
    (hother : other ∈ store.nodes) (hjob : node.job = some job)
    (hjob' : other.job = some job) : node = other := by
  by_contra hne
  exact hnested.one_node.forall hnode hother hne job hjob hjob'

theorem getWorkflowJob_eq_some_iff {parent : JobId} :
    store.getWorkflowJob job = some parent ↔ store.Spawns parent job := by
  constructor
  · intro hparent
    obtain ⟨row, hrow, hfound⟩ := Option.bind_eq_some_iff.mp hparent
    obtain ⟨-, hfound⟩ := Option.ite_none_right_eq_some.mp hfound
    obtain ⟨node, hnode, rfl⟩ := Option.map_eq_some_iff.mp hfound
    exact ⟨node, List.mem_of_find?_eq_some hnode, rfl, by simpa using List.find?_some hnode⟩
  · rintro ⟨node, hnode, rfl, hjob⟩
    obtain ⟨row, hrow, hlaunch⟩ :=
      Option.any_eq_true .. |>.mp (hnested.node_job node hnode job hjob)
    cases hfound : store.nodes.find? fun node => node.job = some job with
    | none => simpa [hjob] using List.find?_eq_none.mp hfound node hnode
    | some found =>
      have hsame : found = node := hnested.node_unique (List.mem_of_find?_eq_some hfound) hnode
        (by simpa using List.find?_some hfound) hjob
      rw [Store.getWorkflowJob, hrow, Option.bind_some, if_pos (of_decide_eq_true hlaunch),
        hfound, Option.map_some, hsame]

theorem spawned_of_spawns {parent : JobId} (hspawns : store.Spawns parent job) :
    store.spawnedByWorkflow job = true ∧ store.isWorkflowJob parent = true := by
  obtain ⟨node, hnode, rfl, hjob⟩ := hspawns
  exact ⟨hnested.node_job node hnode job hjob, hnested.node_parent node hnode⟩

theorem lt_of_spawns {parent : JobId} (hspawns : store.Spawns parent job) : parent < job := by
  obtain ⟨node, hnode, rfl, hjob⟩ := hspawns
  exact hnested.node_lt node hnode job hjob

theorem workflowTemplate_of_spawns {parent : JobId} {template : TemplateId}
    (hspawns : store.Spawns parent job) (hjob : store.isWorkflowJob job = true)
    (htemplate : store.unifiedJobTemplate? parent = some template) :
    store.workflowTemplate? parent = some template := by
  obtain ⟨node, hnode, rfl, hlinked⟩ := hspawns
  cases hworkflow : store.workflowTemplate? node.workflowJob with
  | none =>
    have hslice := hnested.slice node hnode hworkflow (by rw [htemplate]; rfl)
    rw [hnested.slice_child node hnode hslice job hlinked] at hjob
    contradiction
  | some other =>
    obtain ⟨row, hrow, hother⟩ := Option.bind_eq_some_iff.mp hworkflow
    rw [← htemplate, Store.unifiedJobTemplate?, hrow, Option.bind_some,
      Job.unifiedJobTemplate, hother, Option.some_or]

theorem eq_of_reaches_unspawned {ancestor : JobId}
    (hpath : ReflTransGen store.Spawns ancestor job)
    (hjob : store.getWorkflowJob job = none) : ancestor = job := by
  cases hpath with
  | refl => rfl
  | tail _ hspawns =>
    rw [hnested.getWorkflowJob_eq_some_iff.mpr hspawns] at hjob
    contradiction

/-- The loop collects the templates of `wj` and of the workflow jobs above it.
The jobs it has seen come after `wj`, so it does not take `wj` for one of them. -/
theorem mem_ancestorLoop {fuel : ℕ} {wjIds : List JobId} {ancestors result : List TemplateId}
    {wj : JobId} (hseen : ∀ seen ∈ wjIds, wj < seen)
    (hloop : store.ancestorLoop fuel wjIds ancestors (some wj) = some result)
    (hchild : store.Spawns wj job) (hjob : store.isWorkflowJob job = true) :
    ancestors ⊆ result ∧ ∀ ancestor template, ReflTransGen store.Spawns ancestor wj →
      store.unifiedJobTemplate? ancestor = some template → template ∈ result := by
  induction fuel generalizing wjIds ancestors wj job with
  | zero => simp [Store.ancestorLoop] at hloop
  | succ fuel ih =>
    have hparent : store.isWorkflowJob wj = true := (hnested.spawned_of_spawns hchild).2
    rw [Store.ancestorLoop] at hloop
    cases hworkflow : store.workflowTemplate? wj with
    | none =>
      simp only [hworkflow, Option.some.injEq] at hloop
      subst hloop
      have hnone : ∀ template, store.unifiedJobTemplate? wj ≠ some template := by
        intro template htemplate
        rw [hnested.workflowTemplate_of_spawns hchild hjob htemplate] at hworkflow
        contradiction
      -- a job that a workflow spawned has a template, so the walk ends at the top
      have htop : store.getWorkflowJob wj = none := by
        by_contra hspawned
        obtain ⟨above, habove⟩ := Option.ne_none_iff_exists'.mp hspawned
        have hspawns := hnested.getWorkflowJob_eq_some_iff.mp habove
        have hhas := hnested.has_template wj (hnested.spawned_of_spawns hspawns).1 hparent
        obtain ⟨template, htemplate⟩ := Option.isSome_iff_exists.mp hhas
        exact hnone template htemplate
      refine ⟨fun _ hmem => hmem, fun ancestor template hpath htemplate => ?_⟩
      obtain rfl := hnested.eq_of_reaches_unspawned hpath htop
      exact absurd htemplate (hnone template)
    | some own =>
      have hnew : wj ∉ wjIds := fun hmem => (hseen wj hmem).false
      simp only [hworkflow, if_neg hnew] at hloop
      have hown : ∀ template, store.unifiedJobTemplate? wj = some template → template = own := by
        intro template htemplate
        rw [hnested.workflowTemplate_of_spawns hchild hjob htemplate] at hworkflow
        exact Option.some.inj hworkflow
      cases habove : store.getWorkflowJob wj with
      | none =>
        rw [habove] at hloop
        have hresult : ancestors ++ [own] = result := by
          cases fuel with
          | zero => simp [Store.ancestorLoop] at hloop
          | succ fuel => exact Option.some.inj hloop
        subst hresult
        refine ⟨List.subset_append_left _ _, fun ancestor template hpath htemplate => ?_⟩
        obtain rfl := hnested.eq_of_reaches_unspawned hpath habove
        rw [hown template htemplate]
        exact List.mem_append_right _ (List.mem_singleton_self _)
      | some above =>
        rw [habove] at hloop
        have hspawns := hnested.getWorkflowJob_eq_some_iff.mp habove
        have hseen' : ∀ seen ∈ wj :: wjIds, above < seen := by
          intro seen hmem
          cases List.mem_cons.mp hmem with
          | inl hsame => exact hsame ▸ hnested.lt_of_spawns hspawns
          | inr hmem => exact (hnested.lt_of_spawns hspawns).trans (hseen seen hmem)
        obtain ⟨hsubset, hcollected⟩ := ih hseen' hloop hspawns hparent
        refine ⟨fun _ hmem => hsubset (List.mem_append_left _ hmem),
          fun ancestor template hpath htemplate => ?_⟩
        rcases hpath.cases_tail with rfl | ⟨last, hlast, hstep⟩
        · rw [hown template htemplate]
          exact hsubset (List.mem_append_right _ (List.mem_singleton_self _))
        · have hsame : last = above := by
            rw [hnested.getWorkflowJob_eq_some_iff.mpr hstep] at habove
            exact Option.some.inj habove
          exact hcollected ancestor template (hsame ▸ hlast) htemplate

/-- `get_ancestor_workflows` of a workflow job returns the templates of all
workflow jobs above it. -/
theorem mem_getAncestorWorkflows {result : List TemplateId} {ancestor : JobId}
    {template : TemplateId} (hjob : store.isWorkflowJob job = true)
    (hresult : store.getAncestorWorkflows job = some result)
    (hpath : TransGen store.Spawns ancestor job)
    (htemplate : store.unifiedJobTemplate? ancestor = some template) : template ∈ result := by
  obtain ⟨parent, hparent, hspawns⟩ := TransGen.tail'_iff.mp hpath
  rw [Store.getAncestorWorkflows, hnested.getWorkflowJob_eq_some_iff.mpr hspawns] at hresult
  have hseen : ∀ seen ∈ [job], parent < seen := by
    simpa using hnested.lt_of_spawns hspawns
  exact (hnested.mem_ancestorLoop hseen hresult hspawns hjob).2 ancestor template hparent htemplate

/-- The template of a workflow job that passes the recursion test is none of
those above it. -/
theorem template_ne_of_not_recursive {ancestor : JobId} {template : TemplateId}
    (hjob : store.isWorkflowJob job = true)
    (htest : store.isRecursive template job = false)
    (hpath : TransGen store.Spawns ancestor job) :
    store.unifiedJobTemplate? ancestor ≠ some template := by
  intro hsame
  obtain ⟨result, hresult, -⟩ := getAncestorWorkflows_ends store job
  have hmem := hnested.mem_getAncestorWorkflows hjob hresult hpath hsame
  obtain ⟨parent, hparent, hspawns⟩ := TransGen.head'_iff.mp hpath
  have hworkflow : store.isWorkflowJob parent = true := by
    rcases hspawns.cases_head with rfl | ⟨next, hnext, -⟩
    · exact hjob
    · exact (hnested.spawned_of_spawns hnext).2
  have hkind := hnested.workflow_template ancestor template
    (hnested.workflowTemplate_of_spawns hparent hworkflow hsame)
  rw [Store.isRecursive, hkind, hresult, Option.any_some, decide_eq_true hmem] at htest
  contradiction

end Nested

end Forail.NestedWorkflows
