import Forail.Core.Runs
import Forail.Migration.WorkflowGraphs

/-!
# Workflow graphs over repeated runs

Runs add edges and never remove one, and no run looks for cycles.  The local graphs are those
of the source exactly when the source has kept every edge between nodes that are imported again,
and close no cycle exactly when the edges of earlier runs and those of the source together do not.
-/

namespace Forail.Migration

open Forail.Json Forail.Reach Forail.Runs Forail.Tables

variable {env : Environment} {options : Options} {client : Client} {ctx first : Context}
  {db : Database} {maps : Maps} {pk childPk workflow : ℕ} {key : NaturalKey}

/-! ## The claim about one run -/

def NodeOf (db : Database) (workflow pk : ℕ) : Prop :=
  ∃ row, db.get? ⟨.workflowNode, pk⟩ = some row ∧
    row.references "workflow_job_template" = some ⟨.workflowJobTemplate, workflow⟩

def LocalEdge (db : Database) (workflow pk childPk : ℕ) : Prop :=
  NodeOf db workflow pk ∧ NodeOf db workflow childPk ∧
    ∃ edge ∈ edgeFields, edgeLink edge pk childPk ∈ db.links

/-- The graphs after a run: between imported nodes there are the edges of the source, and the
graphs of imported workflows have no cycles. -/
structure GraphsMatch (client : Client) (ctx : Context) : Prop where
  edges : ∀ node pk child childPk, (.int node, pk) ∈ ctx.maps .workflowNode →
    (.int child, childPk) ∈ ctx.maps .workflowNode → ∀ edge ∈ edgeFields,
      (edgeLink edge pk childPk ∈ ctx.db.links ↔ SourceEdge client edge node child)
  acyclic : ∀ id workflow, (id, workflow) ∈ ctx.maps .workflowJobTemplate →
    Acyclic (LocalEdge ctx.db workflow)

def MigratesGraphs (env : Environment) (options : Options) (client : Client) (db : Database) :
    Prop :=
  options.dryRun = false → ∀ ctx, runImport env options client db = .ok ctx → GraphsMatch client ctx

/-! ## The condition -/

/-- An edge between nodes of a workflow, by their natural keys: a local one from before the run,
or one of the source between entries. -/
def JoinedEdge (env : Environment) (options : Options) (client : Client) (db : Database)
    (maps : Maps) (workflow : ℕ) (key childKey : NaturalKey) : Prop :=
  key.parents = [some ⟨.workflowJobTemplate, workflow⟩] ∧
    childKey.parents = [some ⟨.workflowJobTemplate, workflow⟩] ∧
    ∃ edge ∈ edgeFields,
      (∃ pk childPk, HasKey .workflowNode db pk key ∧ HasKey .workflowNode db childPk childKey ∧
        edgeLink edge pk childPk ∈ db.links) ∨
      ∃ node child, NodeEntry env options client maps node key ∧
        NodeEntry env options client maps child childKey ∧ SourceEdge client edge node child

structure KeepsGraphs (env : Environment) (options : Options) (client : Client) (db : Database)
    (maps : Maps) : Prop where
  /-- An old edge between nodes that are imported again is still there. -/
  kept : ∀ node child key childKey, NodeEntry env options client maps node key →
    NodeEntry env options client maps child childKey → ∀ pk childPk,
      HasKey .workflowNode db pk key → HasKey .workflowNode db childPk childKey →
        ∀ edge ∈ edgeFields, edgeLink edge pk childPk ∈ db.links → SourceEdge client edge node child
  /-- Nodes that are imported to the same one have the same edges. -/
  merged : ∀ node child node' child' key childKey, NodeEntry env options client maps node key →
    NodeEntry env options client maps child childKey →
      NodeEntry env options client maps node' key →
        NodeEntry env options client maps child' childKey → ∀ edge ∈ edgeFields,
          SourceEdge client edge node child → SourceEdge client edge node' child'
  /-- Old edges and those of the source close no cycle together. -/
  acyclic : ∀ id workflow, (id, workflow) ∈ maps .workflowJobTemplate →
    Acyclic (JoinedEdge env options client db maps workflow)

/-- A committed run imports a source that has kept its graphs: with the maps of the state in
which the nodes are imported. -/
def Unedited (env : Environment) (options : Options) (client : Client) (db : Database) : Prop :=
  Commits env options client db → ∀ first, entry env options client .workflowNodes db = .ok first →
    KeepsGraphs env options client db first.maps

/-! ## The graphs by natural keys -/

/-- What the schema promises about nodes: an identifier is used once in a workflow, and edges
are between nodes that are there. -/
structure SoundGraphs (db : Database) : Prop where
  unique : UniqueKeys .workflowNode db
  present : ∀ edge ∈ edgeFields, ∀ pk childPk, edgeLink edge pk childPk ∈ db.links →
    (∃ key, HasKey .workflowNode db pk key) ∧ ∃ key, HasKey .workflowNode db childPk key

theorem nodeOf_iff : NodeOf db workflow pk ↔ ∃ key, HasKey .workflowNode db pk key ∧
    key.parents = [some ⟨.workflowJobTemplate, workflow⟩] := by
  constructor
  · rintro ⟨row, hrow, hworkflow⟩
    exact ⟨_, ⟨row, hrow, rfl⟩, congrArg (fun ref => [ref]) hworkflow⟩
  · rintro ⟨_, ⟨row, hrow, rfl⟩, hparents⟩
    exact ⟨row, hrow, (List.cons.inj hparents).1⟩

def nodeKey (db : Database) (pk : ℕ) : NaturalKey :=
  naturalKey .workflowNode ((db.get? ⟨.workflowNode, pk⟩).getD blank)

theorem HasKey.nodeKey (hkey : HasKey .workflowNode db pk key) : nodeKey db pk = key := by
  obtain ⟨row, hrow, rfl⟩ := hkey
  rw [Migration.nodeKey, hrow, Option.getD_some]

theorem NodeOf.hasKey (hnode : NodeOf db workflow pk) :
    HasKey .workflowNode db pk (nodeKey db pk) := by
  obtain ⟨key, hkey, -⟩ := nodeOf_iff.mp hnode
  rwa [hkey.nodeKey]

variable (hgraph : GraphImport env options client db maps ctx)

include hgraph

theorem GraphImport.edge_iff {edge : String} (hedge : edge ∈ edgeFields) {childKey : NaturalKey}
    (hkey : HasKey .workflowNode ctx.db pk key)
    (hchild : HasKey .workflowNode ctx.db childPk childKey) :
    edgeLink edge pk childPk ∈ ctx.db.links ↔ edgeLink edge pk childPk ∈ db.links ∨
      ∃ node child, NodeEntry env options client maps node key ∧
        NodeEntry env options client maps child childKey ∧ SourceEdge client edge node child := by
  rw [hgraph.edges edge hedge]
  apply or_congr_right
  simp only [hgraph.nodes]
  constructor
  · rintro ⟨node, child, ⟨_, hnode, hkey'⟩, ⟨_, hother, hchild'⟩, hsource⟩
    obtain rfl := hkey.unique hkey'
    obtain rfl := hchild.unique hchild'
    exact ⟨node, child, hnode, hother, hsource⟩
  · rintro ⟨node, child, hnode, hother, hsource⟩
    exact ⟨node, child, ⟨key, hnode, hkey⟩, ⟨childKey, hother, hchild⟩, hsource⟩

theorem GraphImport.old_iff (hsound : SoundGraphs db) {edge : String} (hedge : edge ∈ edgeFields)
    {childKey : NaturalKey} (hkey : HasKey .workflowNode ctx.db pk key)
    (hchild : HasKey .workflowNode ctx.db childPk childKey) :
    edgeLink edge pk childPk ∈ db.links ↔ ∃ old oldChild, HasKey .workflowNode db old key ∧
      HasKey .workflowNode db oldChild childKey ∧ edgeLink edge old oldChild ∈ db.links := by
  constructor
  · intro hlink
    obtain ⟨⟨_, hold⟩, _, holdChild⟩ := hsound.present edge hedge pk childPk hlink
    obtain rfl := hkey.unique (hgraph.old pk _ hold)
    obtain rfl := hchild.unique (hgraph.old childPk _ holdChild)
    exact ⟨pk, childPk, hold, holdChild, hlink⟩
  · rintro ⟨old, oldChild, hold, holdChild, hlink⟩
    obtain rfl := hgraph.unique old pk key (hgraph.old old key hold) hkey
    obtain rfl := hgraph.unique oldChild childPk childKey (hgraph.old oldChild childKey holdChild)
      hchild
    exact hlink

theorem GraphImport.joinedEdge_eq (hsound : SoundGraphs db) (workflow : ℕ) :
    JoinedEdge env options client db maps workflow =
      Relation.Map (LocalEdge ctx.db workflow) (nodeKey ctx.db) (nodeKey ctx.db) := by
  ext key childKey
  constructor
  · rintro ⟨hparents, hchildParents, edge, hedge, hjoined⟩
    have hkeys : (∃ pk, HasKey .workflowNode ctx.db pk key) ∧
        ∃ childPk, HasKey .workflowNode ctx.db childPk childKey := by
      rcases hjoined with ⟨old, oldChild, hold, holdChild, -⟩ | ⟨node, child, hnode, hchild, -⟩
      · exact ⟨⟨old, hgraph.old old key hold⟩, oldChild, hgraph.old oldChild childKey holdChild⟩
      · exact ⟨hgraph.imported node key hnode, hgraph.imported child childKey hchild⟩
    obtain ⟨⟨pk, hkey⟩, childPk, hchild⟩ := hkeys
    refine ⟨pk, childPk, ⟨nodeOf_iff.mpr ⟨key, hkey, hparents⟩,
      nodeOf_iff.mpr ⟨childKey, hchild, hchildParents⟩, edge, hedge, ?_⟩, hkey.nodeKey,
      hchild.nodeKey⟩
    rw [hgraph.edge_iff hedge hkey hchild, hgraph.old_iff hsound hedge hkey hchild]
    exact hjoined
  · rintro ⟨pk, childPk, ⟨hnode, hchildNode, edge, hedge, hlink⟩, rfl, rfl⟩
    obtain ⟨_, hkey, hparents⟩ := nodeOf_iff.mp hnode
    obtain ⟨_, hchild, hchildParents⟩ := nodeOf_iff.mp hchildNode
    obtain rfl := hkey.nodeKey
    obtain rfl := hchild.nodeKey
    rw [hgraph.edge_iff hedge hkey hchild, hgraph.old_iff hsound hedge hkey hchild] at hlink
    exact ⟨hparents, hchildParents, edge, hedge, hlink⟩

theorem GraphImport.acyclic_iff (hsound : SoundGraphs db) (workflow : ℕ) :
    Acyclic (LocalEdge ctx.db workflow) ↔
      Acyclic (JoinedEdge env options client db maps workflow) := by
  rw [hgraph.joinedEdge_eq hsound]
  have hsupport : ∀ pk childPk, LocalEdge ctx.db workflow pk childPk →
      pk ∈ {pk | NodeOf ctx.db workflow pk} ∧ childPk ∈ {pk | NodeOf ctx.db workflow pk} :=
    fun _ _ hedge => ⟨hedge.1, hedge.2.1⟩
  refine (acyclic_map_iff hsupport ?_).symm
  intro pk hpk other hother hsame
  have hkey := NodeOf.hasKey hpk
  rw [hsame] at hkey
  exact hgraph.unique pk other _ hkey (NodeOf.hasKey hother)

/-- Between imported nodes there are the edges of the source exactly when it has kept the old
ones and merged nodes agree. -/
theorem GraphImport.graphsMatch_iff (hsound : SoundGraphs db) :
    GraphsMatch client ctx ↔ KeepsGraphs env options client db maps := by
  constructor
  · intro hmatch
    constructor
    · intro node child key childKey hnode hchild pk childPk hkey hchildKey edge hedge hlink
      have hpk := (hgraph.nodes node pk).mpr ⟨key, hnode, hgraph.old pk key hkey⟩
      have hchildPk := (hgraph.nodes child childPk).mpr
        ⟨childKey, hchild, hgraph.old childPk childKey hchildKey⟩
      rw [← hmatch.edges node pk child childPk hpk hchildPk edge hedge]
      exact (hgraph.edges edge hedge pk childPk).mpr (Or.inl hlink)
    · intro node child node' child' key childKey hnode hchild hnode' hchild' edge hedge hsource
      obtain ⟨pk, hkey⟩ := hgraph.imported node key hnode
      obtain ⟨childPk, hchildKey⟩ := hgraph.imported child childKey hchild
      rw [← hmatch.edges node' pk child' childPk ((hgraph.nodes _ _).mpr ⟨key, hnode', hkey⟩)
        ((hgraph.nodes _ _).mpr ⟨childKey, hchild', hchildKey⟩) edge hedge,
        hgraph.edge_iff hedge hkey hchildKey]
      exact Or.inr ⟨node, child, hnode, hchild, hsource⟩
    · intro id workflow hworkflow
      rw [← hgraph.acyclic_iff hsound]
      exact hmatch.acyclic id workflow (hgraph.workflows ▸ hworkflow)
  · intro hkeeps
    constructor
    · intro node pk child childPk hpk hchildPk edge hedge
      obtain ⟨key, hnode, hkey⟩ := (hgraph.nodes node pk).mp hpk
      obtain ⟨childKey, hchild, hchildKey⟩ := (hgraph.nodes child childPk).mp hchildPk
      rw [hgraph.edge_iff hedge hkey hchildKey, hgraph.old_iff hsound hedge hkey hchildKey]
      constructor
      · rintro (⟨old, oldChild, hold, holdChild, hlink⟩ | ⟨node', child', hnode', hchild', hsource⟩)
        · exact hkeeps.kept node child key childKey hnode hchild old oldChild hold holdChild edge
            hedge hlink
        · exact hkeeps.merged node' child' node child key childKey hnode' hchild' hnode hchild edge
            hedge hsource
      · exact fun hsource => Or.inr ⟨node, child, hnode, hchild, hsource⟩
    · intro id workflow hworkflow
      rw [hgraph.acyclic_iff hsound]
      exact hkeeps.acyclic id workflow (hgraph.workflows ▸ hworkflow)

theorem GraphImport.sound (hsound : SoundGraphs db) : SoundGraphs ctx.db where
  unique := hgraph.unique
  present edge hedge pk childPk hlink := by
    rcases (hgraph.edges edge hedge pk childPk).mp hlink with hold | ⟨node, child, hpk, hchildPk, -⟩
    · obtain ⟨⟨key, hkey⟩, childKey, hchildKey⟩ := hsound.present edge hedge pk childPk hold
      exact ⟨⟨key, hgraph.old pk key hkey⟩, childKey, hgraph.old childPk childKey hchildKey⟩
    · obtain ⟨key, -, hkey⟩ := (hgraph.nodes node pk).mp hpk
      obtain ⟨childKey, -, hchildKey⟩ := (hgraph.nodes child childPk).mp hchildPk
      exact ⟨⟨key, hkey⟩, childKey, hchildKey⟩

omit hgraph

/-! ## One run -/

theorem exists_entry (hrun : runImport env options client db = .ok ctx) :
    ∃ first, entry env options client .workflowNodes db = .ok first := by
  obtain ⟨first, _, hfirst, -⟩ := runImport_split .workflowNodes hrun
  exact ⟨first, hfirst⟩

theorem migratesGraphs_iff (hsource : GraphSource client) (hsound : SoundGraphs db) :
    MigratesGraphs env options client db ↔ Unedited env options client db := by
  constructor
  · rintro hmigrates ⟨hdry, ctx, hrun⟩ first hfirst
    have hgraph := graphImport_of_runImport hsource hsound.unique hfirst hrun
    exact (hgraph.graphsMatch_iff hsound).mp (hmigrates hdry ctx hrun)
  · intro hunedited hdry ctx hrun
    obtain ⟨first, hfirst⟩ := exists_entry hrun
    have hgraph := graphImport_of_runImport hsource hsound.unique hfirst hrun
    exact (hgraph.graphsMatch_iff hsound).mpr (hunedited ⟨hdry, ctx, hrun⟩ first hfirst)

theorem soundGraphs_handle (hsource : GraphSource client) (hsound : SoundGraphs db) :
    SoundGraphs (handle env options client db) := by
  rcases handle_cases env options client db with ⟨-, hsame⟩ | ⟨-, ctx, hrun, hsame⟩
  · rw [hsame]
    exact hsound
  · obtain ⟨first, hfirst⟩ := exists_entry hrun
    rw [hsame]
    exact (graphImport_of_runImport hsource hsound.unique hfirst hrun).sound hsound

/-! ## Sequences of runs -/

namespace GraphRuns

/-- The local database, and whether every run so far left the graphs of its source. -/
structure Site where
  db : Database
  matched : Prop

structure Event where
  env : Environment
  options : Options
  client : Client

def step (site : Site) (event : Event) : Option Site :=
  some
    { db := handle event.env event.options event.client site.db
      matched := site.matched ∧ MigratesGraphs event.env event.options event.client site.db }

def Careful (site : Site) (event : Event) : Prop :=
  GraphSource event.client ∧ Unedited event.env event.options event.client site.db

theorem step_spec {site site' : Site} {event : Event} (hsource : GraphSource event.client)
    (hsound : SoundGraphs site.db) (hmatched : site.matched) (hstep : step site event = some site') :
    SoundGraphs site'.db ∧
      (site'.matched ↔ Unedited event.env event.options event.client site.db) := by
  obtain rfl := Option.some.inj hstep
  refine ⟨soundGraphs_handle hsource hsound, ?_⟩
  exact (and_iff_right hmatched).trans (migratesGraphs_iff hsource hsound)

/-- In every sequence of runs of sources that kept their graphs every run leaves the graphs of
its source, and the condition is exact for the next run. -/
theorem graphsMatch_of_careful {site : Site} (hsound : SoundGraphs db)
    (hrun : Run step Careful ⟨db, True⟩ site) :
    site.matched ∧ ∀ event site', GraphSource event.client → step site event = some site' →
      (site'.matched ↔ Unedited event.env event.options event.client site.db) := by
  have hinvariant : SoundGraphs site.db ∧ site.matched := by
    refine hrun.invariant (fun site => SoundGraphs site.db ∧ site.matched) ⟨hsound, trivial⟩ ?_
    rintro state event state' ⟨hstate, hmatched⟩ ⟨hsource, hunedited⟩ hstep
    obtain ⟨hstate', hiff⟩ := step_spec hsource hstate hmatched hstep
    exact ⟨hstate', hiff.mpr hunedited⟩
  refine ⟨hinvariant.2, fun event site' hsource hstep => ?_⟩
  exact (step_spec hsource hinvariant.1 hinvariant.2 hstep).2

/-! ## A workflow with two nodes -/

def emptyDatabase : Database := ⟨fun _ => ⟨[]⟩, [], []⟩

def buildNode : Value :=
  .dict [("id", .int 11), ("identifier", .str "build"), ("workflow_job_template", .int 5)]

def testNode : Value :=
  .dict [("id", .int 12), ("identifier", .str "test"), ("workflow_job_template", .int 5)]

def deploySource (edges : List (ℤ × ℤ)) : Client where
  getList resource :=
    .ok (match resource with
      | .workflowJobTemplates => [.dict [("id", .int 5), ("name", .str "deploy")]]
      | .workflowNodes => [buildNode, testNode]
      | _ => [])
  getSubList _ _ id edge :=
    .ok (if edge = "success_nodes" then
      (edges.filter fun pair => id.equal (.int pair.1)).map fun pair => .dict [("id", .int pair.2)]
    else [])

theorem sourceEdge_deploySource {edges : List (ℤ × ℤ)} {edge : String} {node child : ℤ} :
    SourceEdge (deploySource edges) edge node child ↔
      edge = "success_nodes" ∧ (node, child) ∈ edges := by
  constructor
  · rintro ⟨children, hchildren, other, hother, hchild⟩
    obtain rfl := Except.ok.inj hchildren
    by_cases hedge : edge = "success_nodes"
    · rw [if_pos hedge, List.mem_map] at hother
      obtain ⟨⟨first, second⟩, hpair, rfl⟩ := hother
      obtain ⟨hmem, hequal⟩ := List.mem_filter.mp hpair
      obtain rfl := (equal_int node first).mp hequal
      obtain rfl := Value.int.inj (Except.ok.inj hchild)
      exact ⟨hedge, hmem⟩
    · rw [if_neg hedge] at hother
      exact absurd hother List.not_mem_nil
  · rintro ⟨rfl, hmem⟩
    refine ⟨_, rfl, .dict [("id", .int child)], ?_, rfl⟩
    rw [if_pos rfl, List.mem_map]
    exact ⟨(node, child), List.mem_filter.mpr ⟨hmem, (equal_int node node).mpr rfl⟩, rfl⟩

theorem graphSource_deploySource (edges : List (ℤ × ℤ)) : GraphSource (deploySource edges) where
  steady _ _ _ _ := rfl
  nodes records hlist := by
    obtain rfl := Except.ok.inj hlist
    constructor
    · have hne : buildNode.item "id" ≠ testNode.item "id" := by
        intro hsame
        exact absurd (Value.int.inj (Except.ok.inj hsame)) (by decide)
      simpa [List.nodup_cons] using hne
    · intro record hrecord
      rcases List.mem_pair.mp hrecord with rfl | rfl
      · exact ⟨11, rfl⟩
      · exact ⟨12, rfl⟩
  children node edge _ children hchildren other hother := by
    obtain rfl := Except.ok.inj hchildren
    split at hother
    · obtain ⟨pair, -, rfl⟩ := List.mem_map.mp hother
      exact ⟨pair.2, rfl⟩
    · exact absurd hother List.not_mem_nil

theorem soundGraphs_emptyDatabase : SoundGraphs emptyDatabase where
  unique pk _ _ hkey := by
    obtain ⟨row, hrow, -⟩ := hkey
    rw [show emptyDatabase.get? ⟨.workflowNode, pk⟩ = none from rfl] at hrow
    exact absurd hrow.symm (Option.some_ne_none row)
  present _ _ _ _ hlink := absurd hlink List.not_mem_nil

def AcyclicSource (client : Client) : Prop :=
  Acyclic fun node child => ∃ edge ∈ edgeFields, SourceEdge client edge node child

theorem acyclic_deploySource {node child : ℤ} (hne : node ≠ child) :
    AcyclicSource (deploySource [(node, child)]) := by
  refine @acyclic_of_rank _ _ (fun other => if other = node then 0 else 1) ?_
  rintro x y ⟨edge, -, hsource⟩
  obtain ⟨-, hmem⟩ := sourceEdge_deploySource.mp hsource
  obtain ⟨rfl, rfl⟩ := Prod.mk.inj (List.mem_singleton.mp hmem)
  rw [if_pos rfl, if_neg hne.symm]
  exact Nat.zero_lt_one

theorem nodeEntry_deploySource {edges : List (ℤ × ℤ)} {node : ℤ}
    (hentry : NodeEntry exampleEnvironment options (deploySource edges) maps node key) :
    node = 11 ∧ key.name = some "build" ∨ node = 12 ∧ key.name = some "test" := by
  obtain ⟨-, records, hlist, record, hrecord, hid, hwants⟩ := hentry
  obtain rfl := Except.ok.inj hlist
  obtain ⟨parents, name, text, -, hname, htext, rfl⟩ := wanted_cases hwants
  rcases List.mem_pair.mp hrecord with rfl | rfl
  · left
    obtain rfl := Except.ok.inj hname
    obtain rfl := Except.ok.inj htext
    exact ⟨(Value.int.inj (Except.ok.inj hid)).symm, rfl⟩
  · right
    obtain rfl := Except.ok.inj hname
    obtain rfl := Except.ok.inj htext
    exact ⟨(Value.int.inj (Except.ok.inj hid)).symm, rfl⟩

theorem unedited_deploySource :
    Unedited exampleEnvironment options (deploySource [(11, 12)]) emptyDatabase := by
  intro _ first _
  have hfree : ∀ pk key, ¬HasKey .workflowNode emptyDatabase pk key := by
    rintro pk key ⟨row, hrow, -⟩
    rw [show emptyDatabase.get? ⟨.workflowNode, pk⟩ = none from rfl] at hrow
    exact Option.some_ne_none row hrow.symm
  have hsame : ∀ {node node' key}, NodeEntry exampleEnvironment options (deploySource [(11, 12)])
      first.maps node key → NodeEntry exampleEnvironment options (deploySource [(11, 12)])
      first.maps node' key → node = node' := by
    intro node node' key hnode hnode'
    have hname : (some "build" : Option String) ≠ some "test" := by decide
    rcases nodeEntry_deploySource hnode with ⟨rfl, hbuild⟩ | ⟨rfl, htest⟩
    · rcases nodeEntry_deploySource hnode' with ⟨rfl, -⟩ | ⟨-, htest⟩
      · rfl
      · exact absurd (hbuild.symm.trans htest) hname
    · rcases nodeEntry_deploySource hnode' with ⟨-, hbuild⟩ | ⟨rfl, -⟩
      · exact absurd (hbuild.symm.trans htest) hname
      · rfl
  constructor
  · exact fun _ _ _ _ _ _ pk _ hkey => absurd hkey (hfree pk _)
  · intro node child node' child' key childKey hnode hchild hnode' hchild' edge _ hsource
    obtain rfl := hsame hnode hnode'
    obtain rfl := hsame hchild hchild'
    exact hsource
  · intro id workflow _
    refine @acyclic_of_rank _ _ (fun key => if key.name = some "build" then 0 else 1) ?_
    rintro key childKey ⟨-, -, edge, -, ⟨pk, _, hkey, -⟩ | ⟨node, child, hnode, hchild, hsource⟩⟩
    · exact absurd hkey (hfree pk key)
    · obtain ⟨-, hmem⟩ := sourceEdge_deploySource.mp hsource
      obtain ⟨rfl, rfl⟩ := Prod.mk.inj (List.mem_singleton.mp hmem)
      have hbuild : key.name = some "build" := by
        rcases nodeEntry_deploySource hnode with ⟨-, hbuild⟩ | ⟨hnode, -⟩
        · exact hbuild
        · exact absurd hnode (by decide)
      have htest : childKey.name = some "test" := by
        rcases nodeEntry_deploySource hchild with ⟨hchild, -⟩ | ⟨-, htest⟩
        · exact absurd hchild (by decide)
        · exact htest
      rw [if_pos hbuild, htest, if_neg (by decide)]
      exact Nat.zero_lt_one

theorem graphsMatch_deploySource : ∃ site, Run step Careful ⟨emptyDatabase, True⟩ site ∧
    site.matched := by
  have hcareful : Careful ⟨emptyDatabase, True⟩
      ⟨exampleEnvironment, defaultOptions, deploySource [(11, 12)]⟩ :=
    ⟨graphSource_deploySource _, unedited_deploySource⟩
  have hrun : Run step Careful ⟨emptyDatabase, True⟩ _ := .next _ .start hcareful rfl
  exact ⟨_, hrun, (graphsMatch_of_careful soundGraphs_emptyDatabase hrun).1⟩

theorem reversed_edge_kept :
    ¬ ∀ db site, SoundGraphs db → Run step (fun _ event => GraphSource event.client ∧
      AcyclicSource event.client) ⟨db, True⟩ site → site.matched := by
  intro hall
  have hrun : Run step (fun _ event => GraphSource event.client ∧ AcyclicSource event.client)
      ⟨emptyDatabase, True⟩ _ :=
    .next ⟨exampleEnvironment, defaultOptions, deploySource [(12, 11)]⟩
      (.next ⟨exampleEnvironment, defaultOptions, deploySource [(11, 12)]⟩ .start
        ⟨graphSource_deploySource _, acyclic_deploySource (by decide)⟩ rfl)
      ⟨graphSource_deploySource _, acyclic_deploySource (by decide)⟩ rfl
  obtain ⟨-, hmigrates⟩ := hall _ _ soundGraphs_emptyDatabase hrun
  obtain ⟨ctx, hctx, hmaps, hlink⟩ : ∃ ctx, runImport exampleEnvironment defaultOptions
      (deploySource [(12, 11)]) (handle exampleEnvironment defaultOptions (deploySource [(11, 12)])
        emptyDatabase) = .ok ctx ∧ ctx.maps .workflowNode = [(.int 11, 0), (.int 12, 1)] ∧
      ctx.db.links = [edgeLink "success_nodes" 0 1, edgeLink "success_nodes" 1 0] :=
    ⟨_, rfl, rfl, rfl⟩
  have hbuild : (Value.int 11, 0) ∈ ctx.maps .workflowNode := by
    rw [hmaps]
    exact List.mem_cons_self
  have htest : (Value.int 12, 1) ∈ ctx.maps .workflowNode := by
    rw [hmaps]
    exact List.mem_cons_of_mem _ (List.mem_singleton_self _)
  have hkept : edgeLink "success_nodes" 0 1 ∈ ctx.db.links := by
    rw [hlink]
    exact List.mem_cons_self
  have hedge := ((hmigrates rfl ctx hctx).edges 11 0 12 1 hbuild htest "success_nodes"
    List.mem_cons_self).mp hkept
  exact absurd (sourceEdge_deploySource.mp hedge).2 (by decide)

end GraphRuns

end Forail.Migration
