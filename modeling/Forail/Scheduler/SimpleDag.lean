import Mathlib.Data.List.Basic
import Mathlib.Logic.Function.Basic
import Forail.Core.Reach

/-!
# The simple directed graph of the scheduler

`SimpleDAG` keeps its node objects in a list, the set of nodes without incoming
edges, and two dictionaries from an edge label and a node to the neighbours of
that node.  The source stores list positions in these dictionaries and
translates them with `node_obj_to_node_index`; that translation is a bijection
between positions and node objects, so the neighbours here are the objects
themselves.  The fields `nodes_nodup` to `mem_nodes` state what `add_node` and
`add_edge` keep true, and every graph carries their proofs.
-/

namespace Forail.SimpleDag

/-- The three messages of the `LookupError` raised by `add_edge`. -/
inductive LookupError (Obj : Type*) where
  | fromAndToNotFound (fromObj toObj : Obj)
  | fromNotFound (fromObj : Obj)
  | toNotFound (toObj : Obj)
  deriving DecidableEq, Repr

structure SimpleDAG (Obj Label : Type*) where
  nodes : List Obj
  rootNodes : List Obj
  /-- The keys of the two edge dictionaries, oldest first. -/
  labels : List Label
  nodeFromEdgesByLabel : Label → Obj → List Obj
  nodeToEdgesByLabel : Label → Obj → List Obj
  nodes_nodup : nodes.Nodup
  mem_rootNodes_iff : ∀ obj, obj ∈ rootNodes ↔
    obj ∈ nodes ∧ ∀ label, nodeToEdgesByLabel label obj = []
  mem_from_iff_mem_to : ∀ label parent child,
    child ∈ nodeFromEdgesByLabel label parent ↔
      parent ∈ nodeToEdgesByLabel label child
  mem_labels : ∀ label parent child,
    child ∈ nodeFromEdgesByLabel label parent → label ∈ labels
  mem_nodes : ∀ label parent child,
    child ∈ nodeFromEdgesByLabel label parent → parent ∈ nodes ∧ child ∈ nodes

namespace SimpleDAG

variable {Obj Label : Type*}

def empty : SimpleDAG Obj Label where
  nodes := []
  rootNodes := []
  labels := []
  nodeFromEdgesByLabel := fun _ _ => []
  nodeToEdgesByLabel := fun _ _ => []
  nodes_nodup := List.nodup_nil
  mem_rootNodes_iff := by simp
  mem_from_iff_mem_to := by simp
  mem_labels := by simp
  mem_nodes := by simp

def addNode [DecidableEq Obj] (dag : SimpleDAG Obj Label) (obj : Obj) :
    SimpleDAG Obj Label :=
  if hknown : obj ∈ dag.nodes then dag
  else
    { dag with
      nodes := dag.nodes ++ [obj]
      rootNodes := dag.rootNodes ++ [obj]
      nodes_nodup := by
        rw [List.nodup_append]
        refine ⟨dag.nodes_nodup, List.nodup_singleton obj, ?_⟩
        rintro other hother _ hsingle rfl
        rw [List.mem_singleton] at hsingle
        exact hknown (hsingle ▸ hother)
      mem_rootNodes_iff := by
        intro other
        have hisolated : ∀ label, dag.nodeToEdgesByLabel label obj = [] := by
          intro label
          rw [List.eq_nil_iff_forall_not_mem]
          intro parent hparent
          have hedge := (dag.mem_from_iff_mem_to label parent obj).mpr hparent
          exact hknown (dag.mem_nodes label parent obj hedge).2
        simp only [List.mem_append, List.mem_singleton,
          dag.mem_rootNodes_iff other]
        constructor
        · rintro (⟨hmem, hnone⟩ | rfl)
          · exact ⟨Or.inl hmem, hnone⟩
          · exact ⟨Or.inr rfl, hisolated⟩
        · rintro ⟨hmem | rfl, hnone⟩
          · exact Or.inl ⟨hmem, hnone⟩
          · exact Or.inr rfl
      mem_nodes := fun label parent child hedge =>
        ⟨List.mem_append_left _ (dag.mem_nodes label parent child hedge).1,
          List.mem_append_left _ (dag.mem_nodes label parent child hedge).2⟩ }

/-- Append `value` to the list stored for `label` and `key`, as the source does
with `setdefault` on the nested dictionary. -/
def pushEdge [DecidableEq Obj] [DecidableEq Label]
    (edges : Label → Obj → List Obj) (label : Label) (key value : Obj) :
    Label → Obj → List Obj := fun otherLabel otherKey =>
  if otherLabel = label ∧ otherKey = key then edges otherLabel otherKey ++ [value]
  else edges otherLabel otherKey

theorem mem_pushEdge [DecidableEq Obj] [DecidableEq Label]
    {edges : Label → Obj → List Obj} {label otherLabel : Label}
    {key value otherKey other : Obj} :
    other ∈ pushEdge edges label key value otherLabel otherKey ↔
      other ∈ edges otherLabel otherKey ∨
        (otherLabel = label ∧ otherKey = key ∧ other = value) := by
  unfold pushEdge
  split
  · rename_i hkey
    simp [hkey.1, hkey.2]
  · rename_i hkey
    constructor
    · exact Or.inl
    · rintro (hold | ⟨hlabel, hkey', -⟩)
      · exact hold
      · exact absurd ⟨hlabel, hkey'⟩ hkey

def insertEdge [DecidableEq Obj] [DecidableEq Label] (dag : SimpleDAG Obj Label)
    (fromObj toObj : Obj) (label : Label)
    (hfrom : fromObj ∈ dag.nodes) (hto : toObj ∈ dag.nodes) :
    SimpleDAG Obj Label where
  nodes := dag.nodes
  rootNodes := dag.rootNodes.filter (· ≠ toObj)
  labels := if label ∈ dag.labels then dag.labels else dag.labels ++ [label]
  nodeFromEdgesByLabel := pushEdge dag.nodeFromEdgesByLabel label fromObj toObj
  nodeToEdgesByLabel := pushEdge dag.nodeToEdgesByLabel label toObj fromObj
  nodes_nodup := dag.nodes_nodup
  mem_rootNodes_iff := by
    intro other
    simp only [List.mem_filter, decide_eq_true_eq, dag.mem_rootNodes_iff other]
    constructor
    · rintro ⟨⟨hmem, hnone⟩, hne⟩
      refine ⟨hmem, fun otherLabel => ?_⟩
      simp [pushEdge, hne, hnone otherLabel]
    · rintro ⟨hmem, hnone⟩
      refine ⟨⟨hmem, fun otherLabel => ?_⟩, ?_⟩
      · have hpushed := hnone otherLabel
        unfold pushEdge at hpushed
        split at hpushed
        · simp at hpushed
        · exact hpushed
      · rintro rfl
        have hpushed := hnone label
        simp [pushEdge] at hpushed
  mem_from_iff_mem_to := by
    intro otherLabel parent child
    rw [mem_pushEdge, mem_pushEdge, dag.mem_from_iff_mem_to]
    constructor
    · rintro (hold | ⟨hlabel, hparent, hchild⟩)
      · exact Or.inl hold
      · exact Or.inr ⟨hlabel, hchild, hparent⟩
    · rintro (hold | ⟨hlabel, hchild, hparent⟩)
      · exact Or.inl hold
      · exact Or.inr ⟨hlabel, hparent, hchild⟩
  mem_labels := by
    intro otherLabel parent child hedge
    have hold : otherLabel ∈ dag.labels ∨ otherLabel = label := by
      rcases mem_pushEdge.mp hedge with hedge | ⟨hlabel, -, -⟩
      · exact Or.inl (dag.mem_labels otherLabel parent child hedge)
      · exact Or.inr hlabel
    split
    · rcases hold with hold | rfl <;> assumption
    · simpa using hold
  mem_nodes := by
    intro otherLabel parent child hedge
    rcases mem_pushEdge.mp hedge with hedge | ⟨-, rfl, rfl⟩
    · exact dag.mem_nodes otherLabel parent child hedge
    · exact ⟨hfrom, hto⟩

def addEdge [DecidableEq Obj] [DecidableEq Label] (dag : SimpleDAG Obj Label)
    (fromObj toObj : Obj) (label : Label) :
    Except (LookupError Obj) (SimpleDAG Obj Label) :=
  if hfrom : fromObj ∈ dag.nodes then
    if hto : toObj ∈ dag.nodes then
      .ok (dag.insertEdge fromObj toObj label hfrom hto)
    else .error (.toNotFound toObj)
  else if toObj ∈ dag.nodes then .error (.fromNotFound fromObj)
  else .error (.fromAndToNotFound fromObj toObj)

def getChildrenByLabel (dag : SimpleDAG Obj Label) (obj : Obj) (label : Label) :
    List Obj :=
  dag.nodeFromEdgesByLabel label obj

def getChildren (dag : SimpleDAG Obj Label) (obj : Obj) : List Obj :=
  dag.labels.flatMap fun label => dag.getChildrenByLabel obj label

def getParentsByLabel (dag : SimpleDAG Obj Label) (obj : Obj) (label : Label) :
    List Obj :=
  dag.nodeToEdgesByLabel label obj

def getParents (dag : SimpleDAG Obj Label) (obj : Obj) : List Obj :=
  dag.labels.flatMap fun label => dag.getParentsByLabel obj label

def getRootNodes (dag : SimpleDAG Obj Label) : List Obj := dag.rootNodes

/-! ## Edges -/

def Edge (dag : SimpleDAG Obj Label) (parent child : Obj) : Prop :=
  ∃ label, child ∈ dag.getChildrenByLabel parent label

variable {dag : SimpleDAG Obj Label} {parent child obj : Obj} {label : Label}

theorem mem_getParentsByLabel_iff :
    parent ∈ dag.getParentsByLabel child label ↔
      child ∈ dag.getChildrenByLabel parent label :=
  (dag.mem_from_iff_mem_to label parent child).symm

@[simp]
theorem mem_getChildren_iff : child ∈ dag.getChildren parent ↔
    dag.Edge parent child := by
  simp only [getChildren, List.mem_flatMap, Edge]
  constructor
  · rintro ⟨label, -, hmem⟩
    exact ⟨label, hmem⟩
  · rintro ⟨label, hmem⟩
    exact ⟨label, dag.mem_labels label parent child hmem, hmem⟩

@[simp]
theorem mem_getParents_iff : parent ∈ dag.getParents child ↔
    dag.Edge parent child := by
  simp only [getParents, List.mem_flatMap, Edge, mem_getParentsByLabel_iff]
  constructor
  · rintro ⟨label, -, hmem⟩
    exact ⟨label, hmem⟩
  · rintro ⟨label, hmem⟩
    exact ⟨label, dag.mem_labels label parent child hmem, hmem⟩

theorem Edge.parent_mem (hedge : dag.Edge parent child) : parent ∈ dag.nodes := by
  obtain ⟨label, hmem⟩ := hedge
  exact (dag.mem_nodes label parent child hmem).1

theorem Edge.child_mem (hedge : dag.Edge parent child) : child ∈ dag.nodes := by
  obtain ⟨label, hmem⟩ := hedge
  exact (dag.mem_nodes label parent child hmem).2

@[simp]
theorem mem_getRootNodes_iff : obj ∈ dag.getRootNodes ↔
    obj ∈ dag.nodes ∧ ∀ parent, ¬ dag.Edge parent obj := by
  rw [getRootNodes, dag.mem_rootNodes_iff]
  refine and_congr_right fun _ => ?_
  constructor
  · rintro hnone parent ⟨label, hmem⟩
    rw [← mem_getParentsByLabel_iff, getParentsByLabel, hnone label] at hmem
    exact List.not_mem_nil hmem
  · intro hnone label
    rw [List.eq_nil_iff_forall_not_mem]
    intro parent hmem
    exact hnone parent ⟨label, mem_getParentsByLabel_iff.mp hmem⟩

theorem edge_wellFounded (hacyclic : Reach.Acyclic dag.Edge) :
    WellFounded dag.Edge := by
  classical
  exact hacyclic.wellFounded dag.nodes.toFinset fun parent child hedge =>
    List.mem_toFinset.mpr hedge.parent_mem

@[simp]
theorem nodes_addNode [DecidableEq Obj] : (dag.addNode obj).nodes =
    if obj ∈ dag.nodes then dag.nodes else dag.nodes ++ [obj] := by
  unfold addNode
  split <;> rfl

@[simp]
theorem getChildrenByLabel_addNode [DecidableEq Obj] {node : Obj} :
    (dag.addNode node).getChildrenByLabel obj label =
      dag.getChildrenByLabel obj label := by
  unfold addNode
  split <;> rfl

theorem addEdge_eq_ok_iff [DecidableEq Obj] [DecidableEq Label]
    {result : SimpleDAG Obj Label} :
    dag.addEdge parent child label = .ok result ↔
      ∃ hparent hchild,
        result = dag.insertEdge parent child label hparent hchild := by
  unfold addEdge
  constructor
  · intro hok
    split at hok
    · rename_i hparent
      split at hok
      · rename_i hchild
        exact ⟨hparent, hchild, (Except.ok.inj hok).symm⟩
      · cases hok
    · split at hok <;> cases hok
  · rintro ⟨hparent, hchild, rfl⟩
    rw [dif_pos hparent, dif_pos hchild]

theorem mem_getChildrenByLabel_insertEdge [DecidableEq Obj] [DecidableEq Label]
    {fromObj toObj : Obj} {newLabel : Label}
    {hfrom : fromObj ∈ dag.nodes} {hto : toObj ∈ dag.nodes} :
    child ∈ (dag.insertEdge fromObj toObj newLabel hfrom hto).getChildrenByLabel
        parent label ↔
      child ∈ dag.getChildrenByLabel parent label ∨
        (label = newLabel ∧ parent = fromObj ∧ child = toObj) :=
  mem_pushEdge

/-! ## Graphs built by calls -/

/-- A call of `add_node` or `add_edge`. -/
inductive BuildCall (Obj Label : Type*) where
  | addNode (obj : Obj)
  | addEdge (fromObj toObj : Obj) (label : Label)
  deriving DecidableEq, Repr

def applyCall [DecidableEq Obj] [DecidableEq Label] (dag : SimpleDAG Obj Label) :
    BuildCall Obj Label → Except (LookupError Obj) (SimpleDAG Obj Label)
  | .addNode obj => .ok (dag.addNode obj)
  | .addEdge fromObj toObj label => dag.addEdge fromObj toObj label

/-- The graph that a sequence of calls leaves, when no call raises. -/
def build [DecidableEq Obj] [DecidableEq Label]
    (calls : List (BuildCall Obj Label)) :
    Except (LookupError Obj) (SimpleDAG Obj Label) :=
  calls.foldlM applyCall empty

theorem mem_nodes_applyCall [DecidableEq Obj] [DecidableEq Label]
    {call : BuildCall Obj Label} {result : SimpleDAG Obj Label}
    (hcall : dag.applyCall call = .ok result) :
    obj ∈ result.nodes ↔ obj ∈ dag.nodes ∨ call = .addNode obj := by
  cases call with
  | addNode other =>
    cases hcall
    rw [nodes_addNode, BuildCall.addNode.injEq]
    split
    · rename_i hknown
      grind
    · rw [List.mem_append, List.mem_singleton, eq_comm]
  | addEdge fromObj toObj label =>
    obtain ⟨hfrom, hto, rfl⟩ := addEdge_eq_ok_iff.mp hcall
    simp [insertEdge]

theorem mem_getChildrenByLabel_applyCall [DecidableEq Obj] [DecidableEq Label]
    {call : BuildCall Obj Label} {result : SimpleDAG Obj Label}
    (hcall : dag.applyCall call = .ok result) :
    child ∈ result.getChildrenByLabel parent label ↔
      child ∈ dag.getChildrenByLabel parent label ∨
        call = .addEdge parent child label := by
  cases call with
  | addNode other =>
    cases hcall
    simp
  | addEdge fromObj toObj newLabel =>
    obtain ⟨hfrom, hto, rfl⟩ := addEdge_eq_ok_iff.mp hcall
    rw [mem_getChildrenByLabel_insertEdge, BuildCall.addEdge.injEq]
    grind

theorem foldlM_applyCall [DecidableEq Obj] [DecidableEq Label]
    {calls : List (BuildCall Obj Label)} {result : SimpleDAG Obj Label}
    (hbuild : calls.foldlM applyCall dag = .ok result) :
    (∀ obj, obj ∈ result.nodes ↔ obj ∈ dag.nodes ∨ .addNode obj ∈ calls) ∧
      ∀ parent child label, child ∈ result.getChildrenByLabel parent label ↔
        child ∈ dag.getChildrenByLabel parent label ∨
          .addEdge parent child label ∈ calls := by
  induction calls generalizing dag with
  | nil =>
    cases hbuild
    simp
  | cons call calls ih =>
    rw [List.foldlM_cons] at hbuild
    cases hcall : dag.applyCall call with
    | error error =>
      rw [hcall] at hbuild
      cases hbuild
    | ok next =>
      rw [hcall] at hbuild
      obtain ⟨hnodes, hedges⟩ := ih hbuild
      constructor
      · intro obj
        rw [hnodes, mem_nodes_applyCall hcall, List.mem_cons, or_assoc, eq_comm]
      · intro parent child label
        rw [hedges, mem_getChildrenByLabel_applyCall hcall, List.mem_cons, or_assoc,
          @eq_comm _ call]

theorem mem_nodes_build [DecidableEq Obj] [DecidableEq Label]
    {calls : List (BuildCall Obj Label)} (hbuild : build calls = .ok dag) :
    obj ∈ dag.nodes ↔ .addNode obj ∈ calls := by
  rw [(foldlM_applyCall hbuild).1]
  simp [empty]

theorem mem_getChildrenByLabel_build [DecidableEq Obj] [DecidableEq Label]
    {calls : List (BuildCall Obj Label)} (hbuild : build calls = .ok dag) :
    child ∈ dag.getChildrenByLabel parent label ↔
      .addEdge parent child label ∈ calls := by
  rw [(foldlM_applyCall hbuild).2]
  simp [empty, getChildrenByLabel]

theorem edge_build_iff [DecidableEq Obj] [DecidableEq Label]
    {calls : List (BuildCall Obj Label)} (hbuild : build calls = .ok dag) :
    dag.Edge parent child ↔ ∃ label, .addEdge parent child label ∈ calls :=
  exists_congr fun _ => mem_getChildrenByLabel_build hbuild

end SimpleDAG

end Forail.SimpleDag
