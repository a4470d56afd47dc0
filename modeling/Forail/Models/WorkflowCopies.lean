import Forail.Core.Tables
import Forail.Models.LaunchPrompts
import Forail.Scheduler.DagWorkflow

/-!
# The nodes of a workflow job

A workflow job gets a copy of every node of its template.  The nodes are created first,
and a dictionary from the old keys to the new nodes then carries over the three relations
between them.
-/

namespace Forail.WorkflowCopies

open Forail.DagWorkflow (EdgeLabel)
open Forail.Grouping Forail.Json Forail.LaunchPrompts Forail.Tables

/-- A node of a template, or of a workflow job that is relaunched, with the children that
its relations list. -/
structure WorkflowNode extends LaunchConfig where
  pk : ℕ
  identifier : String
  unifiedJobTemplate : Option ℕ
  allParentsMustConverge : Bool
  children : EdgeLabel → List ℕ

structure WorkflowJobNode extends LaunchConfig where
  workflowJob : ℕ
  identifier : String
  unifiedJobTemplate : Option ℕ
  allParentsMustConverge : Bool
  job : Option ℕ
  doNotRun : Bool
  ancestorArtifacts : Vars

/-- The nodes of all workflow jobs, and the rows of the three relations between them. -/
structure Database where
  nodes : Table WorkflowJobNode
  edges : EdgeLabel → List (ℕ × ℕ)

/-- The nodes of one workflow.  A relation lists no row twice, and the checks of the API
keep edges within their workflow. -/
structure WorkflowGraph where
  nodes : List WorkflowNode
  pks_nodup : (nodes.map WorkflowNode.pk).Nodup
  children_mem : ∀ node ∈ nodes, ∀ label, ∀ child ∈ node.children label,
    child ∈ nodes.map WorkflowNode.pk
  credentials_nodup : ∀ node ∈ nodes, node.credentials.Nodup
  labels_nodup : ∀ node ∈ nodes, node.labels.Nodup
  instanceGroups_nodup : ∀ node ∈ nodes, node.instanceGroups.Nodup

def add {α : Type} [DecidableEq α] (related : List α) (item : α) : List α :=
  if item ∈ related then related else related ++ [item]

def createWorkflowJobNode (workflowJob : ℕ) (node : WorkflowNode) (database : Database) :
    Database × ℕ :=
  let newNode : WorkflowJobNode :=
    { node.toLaunchConfig with
      credentials := node.credentials.foldl add []
      labels := node.labels.foldl add []
      instanceGroups := node.instanceGroups.foldl add []
      workflowJob := workflowJob
      identifier := node.identifier
      unifiedJobTemplate := node.unifiedJobTemplate
      allParentsMustConverge := node.allParentsMustConverge
      job := none
      doNotRun := false
      ancestorArtifacts := ∅ }
  ({ database with nodes := database.nodes.insert newNode }, database.nodes.nextPk)

def createWorkflowNodes (workflowJob : ℕ) (oldNodeList : List WorkflowNode)
    (start : Database × Dict ℕ ℕ) : Database × Dict ℕ ℕ :=
  oldNodeList.foldl (fun state oldNode =>
    let (database, newNode) := createWorkflowJobNode workflowJob oldNode state.1
    (database, state.2.insert oldNode.pk newNode)) start

/-- `node_links[pk]`, or the `KeyError`. -/
def linked (nodeLinks : Dict ℕ ℕ) (pk : ℕ) : Except ℕ ℕ :=
  match nodeLinks.lookup pk with
  | some newNode => .ok newNode
  | none => .error pk

def Database.addEdge (database : Database) (relationship : EdgeLabel) (parent child : ℕ) :
    Database :=
  { database with
    edges := Function.update database.edges relationship
      (add (database.edges relationship) (parent, child)) }

def inheritNodeRelationships (oldNodeList : List WorkflowNode) (nodeLinks : Dict ℕ ℕ)
    (database : Database) : Except ℕ Database :=
  oldNodeList.foldlM (fun database oldNode => do
    let newNode ← linked nodeLinks oldNode.pk
    [EdgeLabel.alwaysNodes, .successNodes, .failureNodes].foldlM
      (fun database relationship =>
        (oldNode.children relationship).foldlM (fun database oldChildNode => do
          let newChildNode ← linked nodeLinks oldChildNode
          return database.addEdge relationship newNode newChildNode) database)
      database) database

def copyNodesFromOriginal (workflowJob : ℕ) (oldNodeList : List WorkflowNode)
    (database : Database) : Except ℕ Database :=
  let (database, nodeLinks) := createWorkflowNodes workflowJob oldNodeList (database, ∅)
  inheritNodeRelationships oldNodeList nodeLinks database

def WorkflowNode.jobNode (node : WorkflowNode) (workflowJob : ℕ) : WorkflowJobNode where
  toLaunchConfig := node.toLaunchConfig
  workflowJob := workflowJob
  identifier := node.identifier
  unifiedJobTemplate := node.unifiedJobTemplate
  allParentsMustConverge := node.allParentsMustConverge
  job := none
  doNotRun := false
  ancestorArtifacts := ∅

/-- The new database has one new node for each node of the graph, and new edges exactly
between the copies of connected nodes. -/
structure IsCopy (graph : WorkflowGraph) (workflowJob : ℕ) (database copied : Database)
    (link : ℕ → ℕ) : Prop where
  injective : ∀ first ∈ graph.nodes, ∀ second ∈ graph.nodes,
    link first.pk = link second.pk → first = second
  fresh : ∀ node ∈ graph.nodes, database.nodes.get? (link node.pk) = none
  rows : ∀ pk row, copied.nodes.get? pk = some row ↔
    database.nodes.get? pk = some row ∨
      ∃ node ∈ graph.nodes, pk = link node.pk ∧ row = node.jobNode workflowJob
  edges : ∀ label, ∀ parent ∈ graph.nodes, ∀ child ∈ graph.nodes,
    (link parent.pk, link child.pk) ∈ copied.edges label ↔ child.pk ∈ parent.children label
  no_stray : ∀ label edge, edge ∈ copied.edges label ↔ edge ∈ database.edges label ∨
    ∃ parent ∈ graph.nodes, ∃ child ∈ graph.nodes, child.pk ∈ parent.children label ∧
      edge = (link parent.pk, link child.pk)

/-! ## The new nodes -/

section Nodes

variable {workflowJob : ℕ} {node : WorkflowNode} {oldNodeList : List WorkflowNode}
  {database : Database} {nodeLinks : Dict ℕ ℕ}

theorem foldl_add {α : Type} [DecidableEq α] {items related : List α}
    (hnodup : (related ++ items).Nodup) : items.foldl add related = related ++ items := by
  induction items generalizing related with
  | nil => exact (List.append_nil related).symm
  | cons item items ih =>
    have hfresh : item ∉ related := fun hmem =>
      List.disjoint_of_nodup_append hnodup hmem List.mem_cons_self
    have happend : related ++ [item] ++ items = related ++ item :: items := by simp
    rw [List.foldl_cons, add, if_neg hfresh, ih (happend ▸ hnodup), happend]

theorem createWorkflowJobNode_eq (hcredentials : node.credentials.Nodup)
    (hlabels : node.labels.Nodup) (hgroups : node.instanceGroups.Nodup) :
    createWorkflowJobNode workflowJob node database =
      ({ database with nodes := database.nodes.insert (node.jobNode workflowJob) },
        database.nodes.nextPk) := by
  have hfill : ∀ items : List ℕ, items.Nodup → items.foldl add [] = items :=
    fun items hnodup => @foldl_add ℕ _ items [] hnodup
  rw [createWorkflowJobNode, hfill _ hcredentials, hfill _ hlabels, hfill _ hgroups]
  rfl

structure Created (workflowJob : ℕ) (oldNodeList : List WorkflowNode) (database : Database)
    (nodeLinks : Dict ℕ ℕ) (database' : Database) (nodeLinks' : Dict ℕ ℕ) : Prop where
  edges : database'.edges = database.edges
  linked : ∀ node ∈ oldNodeList, ∃ pk, nodeLinks'.lookup node.pk = some pk ∧
    database.nodes.nextPk ≤ pk
  injective : ∀ first ∈ oldNodeList, ∀ second ∈ oldNodeList,
    nodeLinks'.lookup first.pk = nodeLinks'.lookup second.pk → first = second
  other : ∀ pk, pk ∉ oldNodeList.map WorkflowNode.pk →
    nodeLinks'.lookup pk = nodeLinks.lookup pk
  rows : ∀ pk row, database'.nodes.get? pk = some row ↔
    database.nodes.get? pk = some row ∨
      ∃ node ∈ oldNodeList, nodeLinks'.lookup node.pk = some pk ∧
        row = node.jobNode workflowJob

theorem nextPk_insert (row : WorkflowJobNode) (nodes : Table WorkflowJobNode) :
    (nodes.insert row).nextPk = nodes.nextPk + 1 := by
  simp [Table.insert, Table.nextPk]

theorem get?_insert_iff {row new : WorkflowJobNode} {nodes : Table WorkflowJobNode} {pk : ℕ} :
    (nodes.insert new).get? pk = some row ↔
      nodes.get? pk = some row ∨ (pk = nodes.nextPk ∧ row = new) := by
  by_cases hpk : pk = nodes.nextPk
  · subst hpk
    rw [Table.get?_insert_self, Table.get?_nextPk, Option.some.injEq, eq_comm]
    simp
  · rw [Table.get?_insert_ne new hpk]
    simp [hpk]

theorem createWorkflowNodes_spec (hpks : (oldNodeList.map WorkflowNode.pk).Nodup)
    (hrelated : ∀ node ∈ oldNodeList, node.credentials.Nodup ∧ node.labels.Nodup ∧
      node.instanceGroups.Nodup) :
    Created workflowJob oldNodeList database nodeLinks
      (createWorkflowNodes workflowJob oldNodeList (database, nodeLinks)).1
      (createWorkflowNodes workflowJob oldNodeList (database, nodeLinks)).2 := by
  induction oldNodeList generalizing database nodeLinks with
  | nil =>
    exact
      { edges := rfl
        linked := by simp
        injective := by simp
        other := fun _ _ => rfl
        rows := by simp [createWorkflowNodes] }
  | cons node rest ih =>
    obtain ⟨hnew, hrest⟩ := List.nodup_cons.mp hpks
    obtain ⟨hcredentials, hlabels, hgroups⟩ := hrelated node List.mem_cons_self
    have hih := @ih
      { database with nodes := database.nodes.insert (node.jobNode workflowJob) }
      (nodeLinks.insert node.pk database.nodes.nextPk) hrest
      fun other hother => hrelated other (List.mem_cons_of_mem _ hother)
    have hstep : createWorkflowNodes workflowJob (node :: rest) (database, nodeLinks) =
        createWorkflowNodes workflowJob rest
          ({ database with nodes := database.nodes.insert (node.jobNode workflowJob) },
            nodeLinks.insert node.pk database.nodes.nextPk) := by
      rw [createWorkflowNodes, List.foldl_cons,
        createWorkflowJobNode_eq hcredentials hlabels hgroups]
      rfl
    rw [hstep]
    generalize createWorkflowNodes workflowJob rest
      ({ database with nodes := database.nodes.insert (node.jobNode workflowJob) },
        nodeLinks.insert node.pk database.nodes.nextPk) = result at hih
    -- the first node is linked to the next key, the others to keys after it
    have hfirst : result.2.lookup node.pk = some database.nodes.nextPk := by
      rw [hih.other node.pk hnew, AList.lookup_insert]
    have hlater : ∀ other ∈ rest, ∃ pk, result.2.lookup other.pk = some pk ∧
        database.nodes.nextPk + 1 ≤ pk := by
      intro other hother
      obtain ⟨pk, hpk, hle⟩ := hih.linked other hother
      exact ⟨pk, hpk, by simpa only [nextPk_insert] using hle⟩
    exact
      { edges := hih.edges
        linked := by
          intro other hother
          cases List.mem_cons.mp hother with
          | inl hsame => exact ⟨_, hsame ▸ hfirst, le_refl _⟩
          | inr hother =>
            obtain ⟨pk, hpk, hle⟩ := hlater other hother
            exact ⟨pk, hpk, by omega⟩
        injective := by
          have hapart : ∀ other ∈ rest,
              result.2.lookup node.pk ≠ result.2.lookup other.pk := by
            intro other hother hsame
            obtain ⟨pk, hpk, hle⟩ := hlater other hother
            rw [hfirst, hpk, Option.some.injEq] at hsame
            omega
          intro first hfirst' second hsecond hsame
          cases List.mem_cons.mp hfirst' with
          | inl hone =>
            cases List.mem_cons.mp hsecond with
            | inl htwo => rw [hone, htwo]
            | inr htwo => exact absurd (hone ▸ hsame) (hapart second htwo)
          | inr hone =>
            cases List.mem_cons.mp hsecond with
            | inl htwo => exact absurd (htwo ▸ hsame).symm (hapart first hone)
            | inr htwo => exact hih.injective first hone second htwo hsame
        other := by
          intro pk hpk
          rw [List.map_cons, List.mem_cons, not_or] at hpk
          rw [hih.other pk hpk.2, AList.lookup_insert_ne hpk.1]
        rows := by
          intro pk row
          rw [hih.rows, get?_insert_iff, or_assoc]
          apply or_congr_right
          simp only [List.exists_mem_cons_iff, hfirst, Option.some.injEq]
          rw [eq_comm] }

end Nodes

/-! ## The new edges -/

section Edges

variable {database database' : Database} {nodeLinks : Dict ℕ ℕ} {link : ℕ → ℕ}
  {graph : WorkflowGraph} {workflowJob : ℕ}

/-- The nodes stay, and the edges with the property are there besides the old ones. -/
structure Adds (database database' : Database) (new : EdgeLabel → ℕ × ℕ → Prop) : Prop where
  nodes : database'.nodes = database.nodes
  edges : ∀ label edge, edge ∈ database'.edges label ↔
    edge ∈ database.edges label ∨ new label edge

theorem adds_addEdge (database : Database) (relationship : EdgeLabel) (parent child : ℕ) :
    Adds database (database.addEdge relationship parent child)
      fun label edge => label = relationship ∧ edge = (parent, child) where
  nodes := rfl
  edges label edge := by
    rw [Database.addEdge]
    by_cases hlabel : label = relationship
    · subst hlabel
      simp only [Function.update_self, add]
      split
      · rename_i hknown
        grind
      · simp
    · simp [hlabel]

theorem foldlM_adds {Item : Type} {items : List Item}
    {step : Database → Item → Except ℕ Database}
    {new : Item → EdgeLabel → ℕ × ℕ → Prop}
    (hstep : ∀ item ∈ items, ∀ database, ∃ database',
      step database item = .ok database' ∧ Adds database database' (new item))
    (database : Database) :
    ∃ database', items.foldlM step database = .ok database' ∧
      Adds database database' fun label edge => ∃ item ∈ items, new item label edge := by
  induction items generalizing database with
  | nil => exact ⟨database, rfl, ⟨rfl, by simp⟩⟩
  | cons item items ih =>
    obtain ⟨middle, hmiddle, hfirst⟩ := hstep item List.mem_cons_self database
    obtain ⟨last, hlast, hrest⟩ :=
      ih (fun other hother => hstep other (List.mem_cons_of_mem _ hother)) middle
    refine ⟨last, ?_, ?_⟩
    · rw [List.foldlM_cons, hmiddle]
      exact hlast
    · exact
        { nodes := hrest.nodes.trans hfirst.nodes
          edges := by
            intro label edge
            rw [hrest.edges, hfirst.edges, or_assoc, List.exists_mem_cons_iff] }

theorem inheritNodeRelationships_adds (graph : WorkflowGraph)
    (hlinked : ∀ node ∈ graph.nodes, linked nodeLinks node.pk = .ok (link node.pk))
    (database : Database) :
    ∃ database', inheritNodeRelationships graph.nodes nodeLinks database = .ok database' ∧
      Adds database database' fun label edge => ∃ parent ∈ graph.nodes,
        ∃ child ∈ parent.children label, edge = (link parent.pk, link child) := by
  have hchild : ∀ parent ∈ graph.nodes, ∀ label, ∀ child ∈ parent.children label,
      linked nodeLinks child = .ok (link child) := by
    intro parent hparent label child hchild
    obtain ⟨node, hnode, rfl⟩ :=
      List.mem_map.mp (graph.children_mem parent hparent label child hchild)
    exact hlinked node hnode
  obtain ⟨database', hrun, hadds⟩ := @foldlM_adds WorkflowNode graph.nodes
    (fun database oldNode => do
      let newNode ← linked nodeLinks oldNode.pk
      [EdgeLabel.alwaysNodes, .successNodes, .failureNodes].foldlM
        (fun database relationship =>
          (oldNode.children relationship).foldlM (fun database oldChildNode => do
            let newChildNode ← linked nodeLinks oldChildNode
            return database.addEdge relationship newNode newChildNode) database)
        database)
    (fun parent label edge => ∃ relationship ∈
      [EdgeLabel.alwaysNodes, .successNodes, .failureNodes],
        ∃ child ∈ parent.children relationship,
          label = relationship ∧ edge = (link parent.pk, link child)) (by
      intro parent hparent database
      rw [hlinked parent hparent]
      apply foldlM_adds
      intro relationship _ database
      apply foldlM_adds
      intro child hmem database
      rw [hchild parent hparent relationship child hmem]
      exact ⟨_, rfl, adds_addEdge database relationship _ _⟩) database
  refine ⟨database', hrun, hadds.nodes, ?_⟩
  intro label edge
  rw [hadds.edges]
  apply or_congr_right
  apply exists_congr
  intro parent
  apply and_congr_right
  intro _
  cases label <;> simp

/-- Copying the nodes of a workflow gives an isomorphic graph of new nodes. -/
theorem copyNodesFromOriginal_isCopy (graph : WorkflowGraph) (workflowJob : ℕ)
    (database : Database)
    (hforeign : ∀ label, ∀ edge ∈ database.edges label,
      edge.1 < database.nodes.nextPk ∧ edge.2 < database.nodes.nextPk) :
    ∃ copied link, copyNodesFromOriginal workflowJob graph.nodes database = .ok copied ∧
      IsCopy graph workflowJob database copied link := by
  have hcreated := @createWorkflowNodes_spec workflowJob graph.nodes database ∅
    graph.pks_nodup fun node hnode => ⟨graph.credentials_nodup node hnode,
      graph.labels_nodup node hnode, graph.instanceGroups_nodup node hnode⟩
  rw [copyNodesFromOriginal]
  generalize createWorkflowNodes workflowJob graph.nodes (database, ∅) = created at hcreated
  obtain ⟨database', nodeLinks⟩ := created
  have hlookup : ∀ node ∈ graph.nodes,
      nodeLinks.lookup node.pk = some ((nodeLinks.lookup node.pk).getD 0) ∧
        database.nodes.nextPk ≤ (nodeLinks.lookup node.pk).getD 0 := by
    intro node hnode
    obtain ⟨pk, hpk, hle⟩ := hcreated.linked node hnode
    simp only at hpk
    rw [hpk]
    exact ⟨rfl, hle⟩
  obtain ⟨copied, hrun, hadds⟩ := @inheritNodeRelationships_adds nodeLinks
    (fun pk => (nodeLinks.lookup pk).getD 0) graph (by
      intro node hnode
      rw [linked, (hlookup node hnode).1]
      rfl) database'
  have hinjective : ∀ first ∈ graph.nodes, ∀ second ∈ graph.nodes,
      (nodeLinks.lookup first.pk).getD 0 = (nodeLinks.lookup second.pk).getD 0 →
        first = second := by
    intro first hfirst second hsecond hsame
    apply hcreated.injective first hfirst second hsecond
    simp only
    rw [(hlookup first hfirst).1, (hlookup second hsecond).1, hsame]
  refine ⟨copied, fun pk => (nodeLinks.lookup pk).getD 0, hrun, ?_⟩
  have hstray : ∀ label edge, edge ∈ copied.edges label ↔ edge ∈ database.edges label ∨
      ∃ parent ∈ graph.nodes, ∃ child ∈ graph.nodes, child.pk ∈ parent.children label ∧
        edge = ((nodeLinks.lookup parent.pk).getD 0, (nodeLinks.lookup child.pk).getD 0) := by
    intro label edge
    rw [hadds.edges, hcreated.edges]
    apply or_congr_right
    constructor
    · rintro ⟨parent, hparent, child, hchild, rfl⟩
      obtain ⟨node, hnode, rfl⟩ :=
        List.mem_map.mp (graph.children_mem parent hparent label child hchild)
      exact ⟨parent, hparent, node, hnode, hchild, rfl⟩
    · rintro ⟨parent, hparent, child, -, hchild, rfl⟩
      exact ⟨parent, hparent, child.pk, hchild, rfl⟩
  exact
    { injective := hinjective
      fresh := by
        intro node hnode
        cases hrow : database.nodes.get? ((nodeLinks.lookup node.pk).getD 0) with
        | none => rfl
        | some row =>
          have hlt := Table.lt_nextPk hrow
          have hle := (hlookup node hnode).2
          omega
      rows := by
        intro pk row
        rw [hadds.nodes, hcreated.rows]
        apply or_congr_right
        apply exists_congr
        intro node
        apply and_congr_right
        intro hnode
        apply and_congr_left
        intro _
        simp only
        rw [(hlookup node hnode).1, Option.some.injEq, Option.getD_some, eq_comm]
      edges := by
        intro label parent hparent child hchild
        rw [hstray]
        constructor
        · rintro (hold | ⟨parent', hparent', child', hchild', hedge, hsame⟩)
          · have hlt := (hforeign label _ hold).1
            have hle := (hlookup parent hparent).2
            simp only at hlt
            omega
          · obtain ⟨hfirst, hsecond⟩ := Prod.mk.inj hsame
            rw [hinjective parent hparent parent' hparent' hfirst,
              hinjective child hchild child' hchild' hsecond]
            exact hedge
        · intro hedge
          exact Or.inr ⟨parent, hparent, child, hchild, hedge, rfl⟩
      no_stray := hstray }

def retryGraph : WorkflowGraph where
  nodes :=
    [{ LaunchConfig.empty with
        pk := 7
        identifier := "deploy"
        unifiedJobTemplate := some 3
        allParentsMustConverge := false
        credentials := [4]
        children := fun
          | .failureNodes | .alwaysNodes => [9]
          | .successNodes => [] },
      { LaunchConfig.empty with
        pk := 9
        identifier := "repair"
        unifiedJobTemplate := none
        allParentsMustConverge := true
        children := fun
          | .successNodes => [7]
          | .failureNodes | .alwaysNodes => [] }]
  pks_nodup := by simp
  children_mem := by
    intro node hnode label child hchild
    simp only [List.mem_cons, List.not_mem_nil, or_false] at hnode
    rcases hnode with rfl | rfl <;> cases label <;> simp_all
  credentials_nodup := by simp [LaunchConfig.empty]
  labels_nodup := by simp [LaunchConfig.empty]
  instanceGroups_nodup := by simp [LaunchConfig.empty]

def otherJobs : Database where
  nodes := ⟨[some { LaunchConfig.empty with
    workflowJob := 5
    identifier := "other"
    unifiedJobTemplate := none
    allParentsMustConverge := false
    job := none
    doNotRun := false
    ancestorArtifacts := ∅ }]⟩
  edges
    | .alwaysNodes => [(0, 0)]
    | _ => []

theorem copyNodesFromOriginal_retry :
    ∃ copied link, copyNodesFromOriginal 6 retryGraph.nodes otherJobs = .ok copied ∧
      IsCopy retryGraph 6 otherJobs copied link := by
  apply copyNodesFromOriginal_isCopy
  intro label edge hedge
  cases label <;> simp_all [otherJobs, Table.nextPk]

end Edges

end Forail.WorkflowCopies
