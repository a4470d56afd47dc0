import Mathlib.Algebra.GroupWithZero.Nat
import Forail.Models.UnifiedJobs
import Forail.Scheduler.TopologicalSort

/-!
# The workflow graph

`WorkflowDAG` is the simple graph of the nodes of one workflow job, with the
edge labels success, failure and always.  The scheduler asks it which nodes to
start, which nodes will never run, and whether the workflow is done.  The
graph is fixed while the node objects change, so the state of the nodes is a
separate argument of every operation.
-/

namespace Forail.DagWorkflow

open Forail.SimpleDag Forail.UnifiedJobs

abbrev NodeId := ℕ
abbrev TemplateId := ℕ

inductive EdgeLabel where
  | successNodes
  | failureNodes
  | alwaysNodes
  deriving DecidableEq, Repr

structure WorkflowJobNode where
  doNotRun : Bool
  job : Option UnifiedJob
  unifiedJobTemplate : Option TemplateId
  allParentsMustConverge : Bool
  deriving DecidableEq, Repr

abbrev NodeStates := NodeId → WorkflowJobNode

abbrev WorkflowDAG := SimpleDAG NodeId EdgeLabel

/-- The exceptions of `_init_graph`: a missing key of `wfn_by_id`, or the
`LookupError` of `add_edge`. -/
inductive GraphError where
  | keyError (node : NodeId)
  | lookupError (error : LookupError NodeId)
  deriving DecidableEq, Repr

namespace WorkflowDAG

variable (dag : WorkflowDAG) (states : NodeStates)

def addEdges (dag : WorkflowDAG) (edges : List (NodeId × NodeId))
    (label : EdgeLabel) : Except GraphError WorkflowDAG :=
  edges.foldlM (fun dag edge =>
    if edge.1 ∉ dag.nodes then .error (.keyError edge.1)
    else if edge.2 ∉ dag.nodes then .error (.keyError edge.2)
    else (dag.addEdge edge.1 edge.2 label).mapError .lookupError) dag

def initGraph (workflowNodes : List NodeId)
    (successNodes failureNodes alwaysNodes : List (NodeId × NodeId)) :
    Except GraphError WorkflowDAG := do
  let dag := workflowNodes.foldl SimpleDAG.addNode SimpleDAG.empty
  let dag ← addEdges dag successNodes .successNodes
  let dag ← addEdges dag failureNodes .failureNodes
  addEdges dag alwaysNodes .alwaysNodes

def ofTables (workflowNodes : List NodeId)
    (successNodes failureNodes alwaysNodes : List (NodeId × NodeId)) :
    WorkflowDAG :=
  match initGraph workflowNodes successNodes failureNodes alwaysNodes with
  | .ok dag => dag
  | .error _ => SimpleDAG.empty

def areRelevantParentsFinished (node : NodeId) : Bool :=
  (dag.getParents node).all fun p =>
    if (states p).doNotRun then true
    else if (states p).unifiedJobTemplate = none then true
    else
      match (states p).job with
      -- the parent may still get a job, and so blocks its children
      | none => false
      | some job =>
          decide (job.status ∈ [.successful, .failed, .error, .canceled])

def allParentsMetConvergenceCriteria (node : NodeId) : Bool :=
  (dag.getParents node).all fun p =>
    match (states p).job with
    | none => true
    | some job =>
        if job.status ∈ [.successful, .failed] then
          let status : EdgeLabel :=
            if job.status = .successful then .successNodes else .failureNodes
          decide (p ∈ dag.getParentsByLabel node status) ||
            decide (p ∈ dag.getParentsByLabel node .alwaysNodes)
        else true

def failurePath (node : NodeId) : List NodeId :=
  dag.getChildrenByLabel node .failureNodes ++
    dag.getChildrenByLabel node .alwaysNodes

def successPath (node : NodeId) : List NodeId :=
  dag.getChildrenByLabel node .successNodes ++
    dag.getChildrenByLabel node .alwaysNodes

/-- The loop of `bfs_nodes_to_run`, whose list of nodes grows at its end while
it is read. -/
def bfsLoop : ℕ → List NodeId → List NodeId → List NodeId → List NodeId
  | 0, _, _, nodesFound => nodesFound
  | _ + 1, [], _, nodesFound => nodesFound
  | fuel + 1, n :: nodes, nodeIdsVisited, nodesFound =>
      if n ∈ nodeIdsVisited then bfsLoop fuel nodes nodeIdsVisited nodesFound
      else
        let visited := nodeIdsVisited ++ [n]
        let obj := states n
        if obj.doNotRun then bfsLoop fuel nodes visited nodesFound
        else
          match obj.job with
          | some job =>
              if job.status ∈ [.failed, .error, .canceled] then
                bfsLoop fuel (nodes ++ dag.failurePath n) visited nodesFound
              else if job.status = .successful then
                bfsLoop fuel (nodes ++ dag.successPath n) visited nodesFound
              else bfsLoop fuel nodes visited nodesFound
          | none =>
              if obj.unifiedJobTemplate = none then
                bfsLoop fuel (nodes ++ dag.failurePath n) visited nodesFound
              -- root nodes and ANY convergence nodes
              else if !obj.allParentsMustConverge &&
                  dag.areRelevantParentsFinished states n then
                bfsLoop fuel nodes visited (nodesFound ++ [n])
              -- ALL convergence nodes
              else if obj.allParentsMustConverge &&
                  dag.areRelevantParentsFinished states n then
                if dag.allParentsMetConvergenceCriteria states n then
                  bfsLoop fuel nodes visited (nodesFound ++ [n])
                else bfsLoop fuel nodes visited nodesFound
              else bfsLoop fuel nodes visited nodesFound

def bfsFuel : ℕ :=
  dag.getRootNodes.length +
    (dag.nodes.map fun node =>
      (dag.failurePath node).length + (dag.successPath node).length).sum

def bfsNodesToRun : List NodeId :=
  dag.bfsLoop states dag.bfsFuel dag.getRootNodes [] []

def cancelNodeJobs : Bool × NodeStates :=
  dag.nodes.foldl (fun acc node =>
    match (acc.2 node).job with
    | none => acc
    | some job =>
        if job.canCancel then
          (false, Function.update acc.2 node
            { acc.2 node with job := some job.cancel })
        else acc) (true, states)

def isWorkflowDone : Bool :=
  dag.nodes.all fun node =>
    if (states node).doNotRun = false ∧ (states node).job = none ∧
        (states node).unifiedJobTemplate ≠ none then false
    else
      match (states node).job with
      | none => true
      | some job =>
          decide (job.status ∈ [.successful, .failed, .canceled, .error])

/-- The nodes that `has_workflow_failed` collects in its first loop. -/
def failedNodes : List NodeId :=
  dag.nodes.filter fun node =>
    decide ((states node).doNotRun = false ∧
      (states node).unifiedJobTemplate = none) ||
    match (states node).job with
    | none => false
    | some job => decide (job.status ∈ [.failed, .canceled, .error])

/-- `has_workflow_failed`; the reason is present exactly when the workflow
failed. -/
def hasWorkflowFailed : Option String :=
  let unhandled := (dag.failedNodes states).filter fun node =>
    (dag.getChildrenByLabel node .failureNodes).length +
      (dag.getChildrenByLabel node .alwaysNodes).length == 0
  if unhandled = [] then none
  else
    let noUfjt := (unhandled.filter fun node =>
      (states node).unifiedJobTemplate.isNone).map toString
    let nodeStatus := (unhandled.filter fun node =>
      (states node).unifiedJobTemplate.isSome).map fun node =>
        "(" ++ toString node ++ "," ++
          (((states node).job.map fun job => job.status.name).getD "") ++ ")"
    some ("No error handling path for workflow job node(s) [" ++
      ",".intercalate nodeStatus ++ "]. Workflow job node(s) missing unified " ++
      "job template and error handling path [" ++ ",".intercalate noUfjt ++ "].")

def areAllNodesDnrDecided (workflowNodes : List NodeId) : Bool :=
  workflowNodes.all fun n =>
    !decide ((states n).doNotRun = false ∧ (states n).job = none ∧
      (states n).unifiedJobTemplate ≠ none)

def shouldMarkNodeDnr (node : NodeId) (parentNodes : List NodeId) : Bool :=
  parentNodes.all fun p =>
    if (states p).doNotRun then true
    else
      match (states p).job with
      | some job =>
          if job.status = .successful then decide (node ∉ dag.successPath p)
          else if job.status ∈ [.failed, .error, .canceled] then
            decide (node ∉ dag.failurePath p)
          else false
      | none =>
          if (states p).unifiedJobTemplate = none then
            decide (node ∉ dag.failurePath p)
          else false

def marksDnr (node : NodeId) : Bool :=
  let obj := states node
  let parentNodes := dag.getParents node
  if !obj.doNotRun && obj.job.isNone && decide (node ∉ dag.getRootNodes) then
    if obj.allParentsMustConverge then
      (parentNodes.any fun p => (states p).doNotRun) ||
        !dag.allParentsMetConvergenceCriteria states node
    else
      areAllNodesDnrDecided states parentNodes &&
        dag.shouldMarkNodeDnr states node parentNodes
  else false

/-- The node states after the marking and the nodes marked, in the order of
the topological sort; `none` when the sort does not return. -/
def markDnrNodes : Option (NodeStates × List NodeId) :=
  dag.sortNodesTopological.map fun sorted =>
    sorted.foldl (fun acc node =>
      if dag.marksDnr acc.1 node then
        (Function.update acc.1 node { acc.1 node with doNotRun := true },
          acc.2 ++ [node])
      else acc) (states, [])

end WorkflowDAG

/-! ## The graph of the tables -/

namespace WorkflowDAG

theorem addEdges_spec {edges : List (NodeId × NodeId)} {label : EdgeLabel}
    {dag : WorkflowDAG}
    (hknown : ∀ edge ∈ edges, edge.1 ∈ dag.nodes ∧ edge.2 ∈ dag.nodes) :
    ∃ dag', addEdges dag edges label = .ok dag' ∧ dag'.nodes = dag.nodes ∧
      ∀ parent child other, child ∈ dag'.getChildrenByLabel parent other ↔
        child ∈ dag.getChildrenByLabel parent other ∨
          (other = label ∧ (parent, child) ∈ edges) := by
  induction edges generalizing dag with
  | nil => exact ⟨dag, rfl, rfl, by simp⟩
  | cons edge edges ih =>
    obtain ⟨hfrom, hto⟩ := hknown edge List.mem_cons_self
    obtain ⟨dag', hok, hnodes, hedges⟩ :=
      @ih (dag.insertEdge edge.1 edge.2 label hfrom hto)
        fun other hother => hknown other (List.mem_cons_of_mem _ hother)
    refine ⟨dag', ?_, hnodes, ?_⟩
    · have hadd : dag.addEdge edge.1 edge.2 label =
          .ok (dag.insertEdge edge.1 edge.2 label hfrom hto) :=
        SimpleDAG.addEdge_eq_ok_iff.mpr ⟨hfrom, hto, rfl⟩
      rw [addEdges, List.foldlM_cons, if_neg (not_not.mpr hfrom),
        if_neg (not_not.mpr hto), hadd]
      exact hok
    · intro parent child other
      rw [hedges, SimpleDAG.mem_getChildrenByLabel_insertEdge, List.mem_cons,
        Prod.ext_iff]
      tauto

theorem foldl_addNode_spec (workflowNodes : List NodeId) (dag : WorkflowDAG) :
    (∀ node, node ∈ (workflowNodes.foldl SimpleDAG.addNode dag).nodes ↔
        node ∈ dag.nodes ∨ node ∈ workflowNodes) ∧
      ∀ parent child label,
        child ∈ (workflowNodes.foldl SimpleDAG.addNode dag).getChildrenByLabel
            parent label ↔
          child ∈ dag.getChildrenByLabel parent label := by
  induction workflowNodes generalizing dag with
  | nil => simp
  | cons head workflowNodes ih =>
    obtain ⟨hnodes, hedges⟩ := ih (dag.addNode head)
    constructor
    · intro node
      rw [List.foldl_cons, hnodes, SimpleDAG.nodes_addNode, List.mem_cons]
      by_cases hknown : head ∈ dag.nodes
      · rw [if_pos hknown]
        constructor
        · tauto
        · intro hmem
          by_cases hhead : node = head
          · exact Or.inl (hhead ▸ hknown)
          · tauto
      · rw [if_neg hknown, List.mem_append, List.mem_singleton, or_assoc]
    · intro parent child label
      rw [List.foldl_cons, hedges, SimpleDAG.getChildrenByLabel_addNode]

/-- `_init_graph` succeeds on tables that name known nodes only, and its graph
has the nodes and edges of the tables. -/
theorem initGraph_spec {workflowNodes : List NodeId}
    {tables : EdgeLabel → List (NodeId × NodeId)}
    (hknown : ∀ label, ∀ edge ∈ tables label,
      edge.1 ∈ workflowNodes ∧ edge.2 ∈ workflowNodes) :
    ∃ dag, initGraph workflowNodes (tables .successNodes) (tables .failureNodes)
        (tables .alwaysNodes) = .ok dag ∧
      (∀ node, node ∈ dag.nodes ↔ node ∈ workflowNodes) ∧
      ∀ parent child, dag.Edge parent child ↔
        ∃ label, (parent, child) ∈ tables label := by
  obtain ⟨hmem, hnone⟩ := foldl_addNode_spec workflowNodes SimpleDAG.empty
  have hnodes : ∀ node,
      node ∈ (workflowNodes.foldl SimpleDAG.addNode SimpleDAG.empty :
        WorkflowDAG).nodes ↔ node ∈ workflowNodes := by
    intro node
    rw [hmem]
    simp [SimpleDAG.empty]
  obtain ⟨first, hfirst, hfirstNodes, hfirstEdges⟩ := @addEdges_spec
    (tables .successNodes) .successNodes _ fun edge hedge => by
      rw [hnodes, hnodes]
      exact hknown .successNodes edge hedge
  obtain ⟨second, hsecond, hsecondNodes, hsecondEdges⟩ := @addEdges_spec
    (tables .failureNodes) .failureNodes first fun edge hedge => by
      rw [hfirstNodes, hnodes, hnodes]
      exact hknown .failureNodes edge hedge
  obtain ⟨third, hthird, hthirdNodes, hthirdEdges⟩ := @addEdges_spec
    (tables .alwaysNodes) .alwaysNodes second fun edge hedge => by
      rw [hsecondNodes, hfirstNodes, hnodes, hnodes]
      exact hknown .alwaysNodes edge hedge
  refine ⟨third, ?_, ?_, ?_⟩
  · simp only [initGraph, hfirst, hsecond, hthird, bind, Except.bind]
  · intro node
    rw [hthirdNodes, hsecondNodes, hfirstNodes, hnodes]
  · intro parent child
    refine exists_congr fun label => ?_
    rw [hthirdEdges, hsecondEdges, hfirstEdges, hnone]
    cases label <;> simp [SimpleDAG.empty, SimpleDAG.getChildrenByLabel]

end WorkflowDAG

theorem acyclic_of_increasing {dag : WorkflowDAG}
    (hincreasing : ∀ parent ∈ dag.nodes, ∀ child ∈ dag.getChildren parent,
      parent < child) : Reach.Acyclic dag.Edge :=
  @Reach.acyclic_of_rank _ dag.Edge id fun parent child hedge =>
    hincreasing parent hedge.parent_mem child (SimpleDAG.mem_getChildren_iff.mpr hedge)

end Forail.DagWorkflow
