import Forail.Core.Runs
import Forail.Scheduler.CycleSearch
import Forail.Scheduler.DagWorkflow

/-!
# Edges of a workflow template

The API view that adds an edge to a workflow template asks `is_valid_relation`,
which adds the edge, builds the graph, searches it for a cycle and takes the
edge back.  The search starts at the roots of the new graph, so it misses a
cycle that no root reaches.  The main results state when an accepted edge keeps
the template acyclic, and what that means for a run of requests.
-/

namespace Forail.WorkflowEdges

open Relation
open Forail.SimpleDag Forail.DagWorkflow Forail.Runs

structure WorkflowTemplate where
  nodes : List NodeId
  tables : EdgeLabel → List (NodeId × NodeId)
  mem_nodes : ∀ label, ∀ edge ∈ tables label, edge.1 ∈ nodes ∧ edge.2 ∈ nodes

namespace WorkflowTemplate

/-- `add` on one of the three relations of `parent`, which does nothing for a
pair that is already related. -/
def addRelation (template : WorkflowTemplate) (relationship : EdgeLabel)
    (parent sub : NodeId) (hparent : parent ∈ template.nodes)
    (hsub : sub ∈ template.nodes) : WorkflowTemplate where
  nodes := template.nodes
  tables := fun label =>
    if label = relationship ∧ (parent, sub) ∉ template.tables label then
      template.tables label ++ [(parent, sub)]
    else template.tables label
  mem_nodes := by
    intro label edge hedge
    split at hedge
    · cases List.mem_append.mp hedge with
      | inl hold => exact template.mem_nodes label edge hold
      | inr hnew =>
        rw [List.mem_singleton.mp hnew]
        exact ⟨hparent, hsub⟩
    · exact template.mem_nodes label edge hedge

def removeRelation (template : WorkflowTemplate) (relationship : EdgeLabel)
    (parent sub : NodeId) : WorkflowTemplate where
  nodes := template.nodes
  tables := fun label =>
    if label = relationship then
      (template.tables label).filter (· ≠ (parent, sub))
    else template.tables label
  mem_nodes := by
    intro label edge hedge
    split at hedge
    · exact template.mem_nodes label edge (List.mem_filter.mp hedge).1
    · exact template.mem_nodes label edge hedge

/-- The node that a request without an `id` creates in the template. -/
def createNode (template : WorkflowTemplate) (node : NodeId) : WorkflowTemplate where
  nodes := template.nodes ++ [node]
  tables := template.tables
  mem_nodes label edge hedge :=
    ⟨List.mem_append_left _ (template.mem_nodes label edge hedge).1,
      List.mem_append_left _ (template.mem_nodes label edge hedge).2⟩

def graph (template : WorkflowTemplate) : Except GraphError WorkflowDAG :=
  WorkflowDAG.initGraph template.nodes (template.tables .successNodes)
    (template.tables .failureNodes) (template.tables .alwaysNodes)

def relationships : List EdgeLabel := [.successNodes, .failureNodes, .alwaysNodes]

/-- `is_valid_relation` for two nodes of the template: the tables it leaves, and
its error if it has one. -/
def isValidRelation (template : WorkflowTemplate) (relationship : EdgeLabel)
    (parent sub : NodeId) (hparent : parent ∈ template.nodes)
    (hsub : sub ∈ template.nodes) (created : Bool) :
    Except GraphError (WorkflowTemplate × Option String) :=
  if created then .ok (template, none)
  else if parent = sub then .ok (template, some "Cycle detected.")
  else if (relationships.erase relationship).any
      (fun label => decide ((parent, sub) ∈ template.tables label)) then
    .ok (template, some "Relationship not allowed.")
  else
    let added := template.addRelation relationship parent sub hparent hsub
    let removed := added.removeRelation relationship parent sub
    added.graph.map fun graph =>
      if graph.hasCycle then (removed, some "Cycle detected.") else (removed, none)

def attach (template : WorkflowTemplate) (relationship : EdgeLabel)
    (parent sub : NodeId) (hparent : parent ∈ template.nodes)
    (hsub : sub ∈ template.nodes) (created : Bool) :
    Except GraphError (WorkflowTemplate × Option String) :=
  (template.isValidRelation relationship parent sub hparent hsub created).map
    fun (checked, attachErrors) =>
      if h : attachErrors = none ∧ parent ∈ checked.nodes ∧ sub ∈ checked.nodes then
        (checked.addRelation relationship parent sub h.2.1 h.2.2, none)
      else (checked, attachErrors)

inductive Request where
  /-- With the `id` of a node of the template. -/
  | attachNode (relationship : EdgeLabel) (parent sub : NodeId)
  /-- Without an `id`: the child is created first. -/
  | createNode (relationship : EdgeLabel) (parent sub : NodeId)

/-- A request that is accepted; no step for one that is refused or raises. -/
def step (template : WorkflowTemplate) : Request → Option WorkflowTemplate
  | .attachNode relationship parent sub =>
      if h : parent ∈ template.nodes ∧ sub ∈ template.nodes then
        match template.attach relationship parent sub h.1 h.2 false with
        | .ok (attached, none) => some attached
        | _ => none
      else none
  | .createNode relationship parent sub =>
      if h : parent ∈ template.nodes ∧ sub ∉ template.nodes then
        let created := template.createNode sub
        match created.attach relationship parent sub
            (List.mem_append_left _ h.1) (by simp [created, createNode]) true with
        | .ok (attached, none) => some attached
        | _ => none
      else none

def Edge (template : WorkflowTemplate) (parent child : NodeId) : Prop :=
  ∃ label, (parent, child) ∈ template.tables label

def IsRoot (template : WorkflowTemplate) (node : NodeId) : Prop :=
  node ∈ template.nodes ∧ ∀ parent, ¬ template.Edge parent node

/-! ## The tables and their graph -/

variable {template : WorkflowTemplate} {relationship : EdgeLabel}
  {parent sub : NodeId} {hparent : parent ∈ template.nodes}
  {hsub : sub ∈ template.nodes}

theorem mem_addRelation {label : EdgeLabel} {edge : NodeId × NodeId} :
    edge ∈ (template.addRelation relationship parent sub hparent hsub).tables label ↔
      edge ∈ template.tables label ∨ (label = relationship ∧ edge = (parent, sub)) := by
  simp only [addRelation]
  split
  · rename_i hnew
    simp [hnew.1]
  · rename_i hnew
    constructor
    · exact Or.inl
    · intro hedge
      cases hedge with
      | inl hold => exact hold
      | inr hself =>
        rw [hself.2]
        by_contra hmissing
        exact hnew ⟨hself.1, hmissing⟩

theorem edge_addRelation {x y : NodeId} :
    (template.addRelation relationship parent sub hparent hsub).Edge x y ↔
      template.Edge x y ∨ (x = parent ∧ y = sub) := by
  simp only [Edge, mem_addRelation, Prod.mk.injEq]
  constructor
  · intro hedge
    obtain ⟨label, hold | hnew⟩ := hedge
    · exact Or.inl ⟨label, hold⟩
    · exact Or.inr hnew.2
  · intro hedge
    cases hedge with
    | inl hold =>
      obtain ⟨label, hold⟩ := hold
      exact ⟨label, Or.inl hold⟩
    | inr hnew => exact ⟨relationship, Or.inr ⟨rfl, hnew⟩⟩

theorem edge_readd {x y : NodeId}
    {hparent' : parent ∈ ((template.addRelation relationship parent sub hparent
      hsub).removeRelation relationship parent sub).nodes}
    {hsub' : sub ∈ ((template.addRelation relationship parent sub hparent
      hsub).removeRelation relationship parent sub).nodes} :
    (((template.addRelation relationship parent sub hparent hsub).removeRelation
        relationship parent sub).addRelation relationship parent sub hparent'
          hsub').Edge x y ↔
      template.Edge x y ∨ (x = parent ∧ y = sub) := by
  rw [← @edge_addRelation template relationship parent sub hparent hsub]
  refine exists_congr fun label => ?_
  rw [mem_addRelation]
  by_cases hlabel : label = relationship
  · by_cases hedge : (x, y) = (parent, sub)
    · simp [hlabel, hedge, mem_addRelation]
    · simp [hlabel, hedge, removeRelation]
  · simp [hlabel, removeRelation]

theorem exists_graph (template : WorkflowTemplate) :
    ∃ dag, template.graph = .ok dag ∧ (∀ node, node ∈ dag.nodes ↔
      node ∈ template.nodes) ∧ ∀ x y, dag.Edge x y ↔ template.Edge x y :=
  WorkflowDAG.initGraph_spec template.mem_nodes

/-- The search finds a cycle of the template exactly when a root reaches it, or
when the template has nodes but no root. -/
theorem hasCycle_graph_iff {dag : WorkflowDAG} (hgraph : template.graph = .ok dag) :
    dag.hasCycle = true ↔
      (template.nodes ≠ [] ∧ ∀ node, ¬ template.IsRoot node) ∨
        ∃ root vertex, template.IsRoot root ∧
          ReflTransGen template.Edge root vertex ∧
          TransGen template.Edge vertex vertex := by
  obtain ⟨other, hother, hnodes, hedges⟩ := template.exists_graph
  obtain rfl : dag = other := Except.ok.inj (hgraph.symm.trans hother)
  have hrelation : dag.Edge = template.Edge := by
    funext x y
    exact propext (hedges x y)
  have hroots : ∀ node, node ∈ dag.getRootNodes ↔ template.IsRoot node := by
    intro node
    rw [SimpleDAG.mem_getRootNodes_iff, hnodes, hrelation]
    rfl
  have hempty : dag.nodes = [] ↔ template.nodes = [] := by
    simp only [List.eq_nil_iff_forall_not_mem, hnodes]
  have hrootless : dag.getRootNodes = [] ↔ ∀ node, ¬ template.IsRoot node := by
    simp only [List.eq_nil_iff_forall_not_mem, hroots]
  rw [SimpleDAG.hasCycle_iff, hrelation, ne_eq, hempty, hrootless]
  simp only [hroots, exists_and_left]

/-! ## Accepted requests -/

/-- A cycle that the new edge closes is seen: some root other than `sub` reaches
`parent`, or no root is left. -/
def CycleSeen (template : WorkflowTemplate) (parent sub : NodeId) : Prop :=
  ReflTransGen template.Edge sub parent →
    (∃ root, template.IsRoot root ∧ root ≠ sub ∧
      ReflTransGen template.Edge root parent) ∨
    ∀ root, template.IsRoot root → root = sub

/-- An accepted edge adds itself to the edges, and the search found nothing in
the graph with it. -/
theorem attach_accepted {attached : WorkflowTemplate}
    (hattach : template.attach relationship parent sub hparent hsub false =
      .ok (attached, none)) :
    parent ≠ sub ∧ attached.nodes = template.nodes ∧
      (∀ x y, attached.Edge x y ↔ template.Edge x y ∨ (x = parent ∧ y = sub)) ∧
      ∃ dag, (template.addRelation relationship parent sub hparent hsub).graph =
        .ok dag ∧ dag.hasCycle = false := by
  obtain ⟨dag, hgraph, -, -⟩ :=
    (template.addRelation relationship parent sub hparent hsub).exists_graph
  simp only [attach, isValidRelation, Bool.false_eq_true, if_false] at hattach
  split at hattach
  · simp [Except.map] at hattach
  · rename_i hne
    split at hattach
    · simp [Except.map] at hattach
    · rw [hgraph] at hattach
      cases hcycle : dag.hasCycle with
      | true => simp [Except.map, hcycle] at hattach
      | false =>
        have hstored : parent ∈ template.nodes ∧ sub ∈ template.nodes :=
          ⟨hparent, hsub⟩
        simp only [Except.map, hcycle, Bool.false_eq_true, if_false,
          Except.ok.injEq] at hattach
        rw [dif_pos ⟨trivial, hparent, hsub⟩] at hattach
        obtain rfl := (Prod.mk.inj hattach).1
        exact ⟨hne, rfl, fun x y => edge_readd, dag, hgraph, hcycle⟩

theorem isRoot_of_insert {other : WorkflowTemplate} {root : NodeId}
    (hnodes : other.nodes = template.nodes)
    (hedges : ∀ x y, other.Edge x y ↔ template.Edge x y ∨ (x = parent ∧ y = sub)) :
    other.IsRoot root ↔ template.IsRoot root ∧ root ≠ sub := by
  simp only [IsRoot, hnodes, hedges, not_or, forall_and, not_and]
  constructor
  · intro hroot
    exact ⟨⟨hroot.1, hroot.2.1⟩, hroot.2.2 parent rfl⟩
  · intro hroot
    exact ⟨hroot.1.1, hroot.1.2, fun _ _ => hroot.2⟩

/-- Step lemma: an accepted edge keeps an acyclic template acyclic exactly when
the cycle it may close would have been seen. -/
theorem attach_acyclic_iff (hacyclic : Reach.Acyclic template.Edge)
    {attached : WorkflowTemplate}
    (hattach : template.attach relationship parent sub hparent hsub false =
      .ok (attached, none)) :
    Reach.Acyclic attached.Edge ↔ template.CycleSeen parent sub := by
  obtain ⟨-, -, hedges, dag, hgraph, hcycle⟩ := attach_accepted hattach
  have hinsert : Reach.Acyclic attached.Edge ↔
      ¬ ReflTransGen template.Edge sub parent := by
    rw [← Reach.acyclic_insert_iff hacyclic]
    have hrelation : attached.Edge =
        fun x y => template.Edge x y ∨ (x = parent ∧ y = sub) := by
      funext x y
      exact propext (hedges x y)
    rw [hrelation]
  rw [hinsert]
  constructor
  · intro hback hreach
    exact absurd hreach hback
  · intro hseen hback
    let added := template.addRelation relationship parent sub hparent hsub
    have haddedEdges : ∀ x y, added.Edge x y ↔
        template.Edge x y ∨ (x = parent ∧ y = sub) := fun x y => edge_addRelation
    have hroots : ∀ root, added.IsRoot root ↔ template.IsRoot root ∧ root ≠ sub :=
      fun root => isRoot_of_insert rfl haddedEdges
    have hmono : ∀ x y, ReflTransGen template.Edge x y →
        ReflTransGen added.Edge x y := fun x y =>
      ReflTransGen.mono (fun a b hedge => (haddedEdges a b).mpr (Or.inl hedge)) x y
    have hfound : dag.hasCycle = true := by
      rw [hasCycle_graph_iff hgraph]
      cases hseen hback with
      | inl hroot =>
        obtain ⟨root, hroot, hne, hreach⟩ := hroot
        refine Or.inr ⟨root, parent, (hroots root).mpr ⟨hroot, hne⟩,
          hmono root parent hreach, ?_⟩
        exact .head' ((haddedEdges parent sub).mpr (Or.inr ⟨rfl, rfl⟩))
          (hmono sub parent hback)
      | inr honly =>
        refine Or.inl ⟨List.ne_nil_of_mem hparent, ?_⟩
        intro root hroot
        obtain ⟨hold, hne⟩ := (hroots root).mp hroot
        exact hne (honly root hold)
    simp [hcycle] at hfound

def SafeRequest (template : WorkflowTemplate) : Request → Prop
  | .attachNode _ parent sub => template.CycleSeen parent sub
  | .createNode _ _ _ => True

theorem acyclic_step (hacyclic : Reach.Acyclic template.Edge)
    {request : Request} {template' : WorkflowTemplate}
    (hsafe : template.SafeRequest request)
    (hstep : template.step request = some template') :
    Reach.Acyclic template'.Edge := by
  cases request with
  | attachNode relationship parent sub =>
    simp only [step] at hstep
    split at hstep
    · rename_i hnodes
      split at hstep
      · rename_i attached hattach
        obtain rfl := Option.some.inj hstep
        exact (attach_acyclic_iff hacyclic hattach).mpr hsafe
      · cases hstep
    · cases hstep
  | createNode relationship parent sub =>
    simp only [step] at hstep
    split at hstep
    · rename_i hnodes
      have hmem : parent ∈ (template.createNode sub).nodes ∧
          sub ∈ (template.createNode sub).nodes := by
        simp [createNode, hnodes.1]
      simp only [attach, isValidRelation, if_true, Except.map, hmem, and_self,
        dif_pos] at hstep
      obtain rfl := Option.some.inj hstep
      have hrelation : ((template.createNode sub).addRelation relationship parent sub
          hmem.1 hmem.2).Edge =
          fun x y => template.Edge x y ∨ (x = parent ∧ y = sub) := by
        funext x y
        exact propext edge_addRelation
      rw [hrelation, Reach.acyclic_insert_iff hacyclic]
      intro hback
      cases ReflTransGen.cases_head hback with
      | inl hself => exact hnodes.2 (hself ▸ hnodes.1)
      | inr hfirst =>
        obtain ⟨next, ⟨label, hedge⟩, -⟩ := hfirst
        exact hnodes.2 (template.mem_nodes label _ hedge).1
    · cases hstep

/-- In a run of accepted requests in which every closed cycle is seen, an
acyclic template stays acyclic. -/
theorem acyclic_of_run {start : WorkflowTemplate}
    (hacyclic : Reach.Acyclic start.Edge)
    (hrun : Run step SafeRequest start template) : Reach.Acyclic template.Edge :=
  Run.invariant (fun template => Reach.Acyclic template.Edge) hacyclic
    (fun _ _ _ hold hsafe hstep => acyclic_step hold hsafe hstep) hrun

def apart : WorkflowTemplate where
  nodes := [0, 1, 2]
  tables := fun label => if label = .successNodes then [(1, 2)] else []
  mem_nodes := by
    intro label
    cases label <;> decide

theorem edge_apart {x y : NodeId} : apart.Edge x y ↔ x = 1 ∧ y = 2 := by
  constructor
  · intro hedge
    obtain ⟨label, hlabel⟩ := hedge
    cases label with
    | successNodes => simpa [apart] using hlabel
    | failureNodes | alwaysNodes => simp [apart] at hlabel
  · intro hedge
    exact ⟨.successNodes, by simp [apart, hedge]⟩

theorem acyclic_apart : Reach.Acyclic apart.Edge := by
  refine @Reach.acyclic_of_rank _ apart.Edge id ?_
  intro x y hedge
  obtain ⟨rfl, rfl⟩ := edge_apart.mp hedge
  decide

theorem acyclic_of_run_apart :
    Reach.Acyclic
      ((apart.step (.attachNode .alwaysNodes 0 1)).get (by decide)).Edge := by
  refine acyclic_of_run acyclic_apart
    (.next (.attachNode .alwaysNodes 0 1) .start ?_ (Option.some_get _).symm)
  intro _
  refine Or.inl ⟨0, ⟨by decide, fun parent hedge => ?_⟩, by decide, .refl⟩
  simp [edge_apart] at hedge

theorem cycle_accepted :
    ¬ ∀ start template : WorkflowTemplate, Reach.Acyclic start.Edge →
      Run step (fun _ _ => True) start template →
      Reach.Acyclic template.Edge := by
  intro hclaim
  have hback : ([Request.attachNode .successNodes 2 1].foldlM step apart).any
      (fun template => decide ((1, 2) ∈ template.tables .successNodes) &&
        decide ((2, 1) ∈ template.tables .successNodes)) = true := by decide
  obtain ⟨template, hrun, hedges⟩ := exists_run_of_any _ hback
  simp only [Bool.and_eq_true, decide_eq_true_eq] at hedges
  apply hclaim apart template acyclic_apart hrun 1
  exact .head ⟨_, hedges.1⟩ (.single ⟨_, hedges.2⟩)

end WorkflowTemplate

end Forail.WorkflowEdges
