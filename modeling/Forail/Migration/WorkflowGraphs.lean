import Forail.Core.Reach
import Forail.Migration.ImportedKeys

/-!
# The graphs of imported workflows

The nodes of all workflows are imported before the edges of each of them are added.  No other
resource touches the nodes or their edges, so after a run the edges are the old ones and those
that the source has between entries that were imported.
-/

namespace Forail.Migration

open Forail.FallibleLoops Forail.Json Forail.Reach Forail.Tables

variable {env : Environment} {options : Options} {client : Client} {importer : Importer}
  {ctx ctx' first : Context} {db : Database} {resource : Resource} {edge : String}
  {node child : ℤ} {pk childPk workflow : ℕ} {key childKey : NaturalKey} {link : Link}

/-! ## The source -/

def SourceEdge (client : Client) (edge : String) (node child : ℤ) : Prop :=
  ∃ children, client.getSubList 0 .workflowNodes (.int node) edge = .ok children ∧
    ∃ other ∈ children, other.item "id" = .ok (.int child)

/-- A source that does not change its graphs during a run, with numbers as ids. -/
structure GraphSource (client : Client) : Prop where
  steady : ∀ asked node, ∀ edge ∈ edgeFields,
    client.getSubList asked .workflowNodes node edge = client.getSubList 0 .workflowNodes node edge
  nodes : ∀ records, client.getList .workflowNodes = .ok records → DistinctIds records
  children : ∀ node, ∀ edge ∈ edgeFields, ∀ children,
    client.getSubList 0 .workflowNodes node edge = .ok children →
      ∀ other ∈ children, ∃ id : ℤ, other.item "id" = .ok (.int id)

/-- A listed node that is not skipped, by its id, with the natural key that it gets from the
maps of the kinds that were imported before. -/
def NodeEntry (env : Environment) (options : Options) (client : Client) (maps : Maps) (node : ℤ)
    (key : NaturalKey) : Prop :=
  options.only .workflowNodes = true ∧ ∃ records, client.getList .workflowNodes = .ok records ∧
    ∃ record ∈ records, record.item "id" = .ok (.int node) ∧
      Wants env workflowNodes maps record key

/-! ## Other resources -/

theorem attachment_relation {attachment : Attachment} (himporter : importerOf resource = some importer)
    (hattachment : importer.attachment = some attachment) (own other : ℕ) :
    (attachment.link own other).relation ∉ edgeFields := by
  have hhosts : "hosts" ∉ edgeFields := by decide
  have hcredentials : "credentials" ∉ edgeFields := by decide
  cases resource with
  | roles => exact absurd himporter.symm (Option.some_ne_none _)
  | hosts =>
    obtain rfl := Option.some.inj himporter
    obtain rfl := Option.some.inj hattachment
    exact hhosts
  | inventorySources | jobTemplates =>
    obtain rfl := Option.some.inj himporter
    obtain rfl := Option.some.inj hattachment
    exact hcredentials
  | _ =>
    obtain rfl := Option.some.inj himporter
    exact absurd hattachment.symm (Option.some_ne_none _)

theorem Step.edge_mem_iff (hstep : Step env options client resource ctx ctx')
    (hne : resource ≠ .workflowNodes) (hedge : link.relation ∈ edgeFields) :
    link ∈ ctx'.db.links ↔ link ∈ ctx.db.links := by
  cases hstep with
  | imports himporter _ _ _ himports =>
    cases himports with
    | skipped _ => rfl
    | saved _ _ _ _ _ _ _ _ _ _ hlinks hnew =>
      refine ⟨fun hlink => (hnew link hlink).resolve_right ?_, hlinks link⟩
      rintro ⟨attachment, other, hattachment, rfl⟩
      exact attachment_relation himporter hattachment _ _ hedge
  | matched _ _ => rfl
  | granted _ _ hsaved =>
    obtain ⟨_, -, rfl⟩ := save_cases hsaved
    rfl
  | aside _ _ hlinks hnew =>
    exact ⟨fun hlink => (hnew link hlink).resolve_right fun hother => hother hne hedge, hlinks link⟩

theorem importResources_edge_iff {resources : List Resource}
    (hresources : .workflowNodes ∉ resources) (hedge : link.relation ∈ edgeFields)
    (himport : importResources env options client resources ctx = .ok ctx') :
    link ∈ ctx'.db.links ↔ link ∈ ctx.db.links := by
  apply importResources_keeps (fun state => link ∈ state.db.links ↔ link ∈ ctx.db.links) _ himport
    Iff.rfl
  intro resource hresource _ state state' hstep hsame
  have hne : resource ≠ .workflowNodes := by
    rintro rfl
    exact hresources hresource
  exact (hstep.edge_mem_iff hne hedge).trans hsame

theorem importResources_maps {kind : Kind} {resources : List Resource}
    (hresources : ∀ resource ∈ resources, kind ≠ resource.kind)
    (himport : importResources env options client resources ctx = .ok ctx') :
    ctx'.maps kind = ctx.maps kind := by
  apply importResources_keeps (fun state => state.maps kind = ctx.maps kind) _ himport rfl
  intro resource hresource _ state state' hstep hsame
  exact (hstep.maps_ne (hresources resource hresource)).trans hsame

/-! ## The second pass -/

def AddedFor (client : Client) (maps : Maps) (entry : Value × ℕ) (edge : String) (link : Link) :
    Prop :=
  ∃ node child childPk, entry.1 = .int node ∧ SourceEdge client edge node child ∧
    (.int child, childPk) ∈ maps .workflowNode ∧ link = edgeLink edge entry.2 childPk

theorem addedFor_of_attachAll {start : Context} {records : List Value} {entry : Value × ℕ}
    (hsource : GraphSource client) (hids : DistinctIds records)
    (hentered : Entered env workflowNodes start records ctx)
    (hentry : entry ∈ ctx.maps .workflowNode) (hedge : edge ∈ edgeFields)
    (hattach : attachAll client .workflowNodes entry.1 edge .workflowNode (edgeLink edge entry.2)
      ctx = .ok ctx') :
    (ctx'.maps = ctx.maps ∧ ctx'.db.tables = ctx.db.tables) ∧
      ∀ link, link ∈ ctx'.db.links ↔ link ∈ ctx.db.links ∨
        AddedFor client ctx.maps entry edge link := by
  obtain ⟨children, links, hchildren, rfl, hattached⟩ := attachAll_spec hattach
  obtain ⟨record, hrecord, _, hid, -⟩ := (hentered.entries entry.1 entry.2).mp hentry
  obtain ⟨node, hnode⟩ := hids.number record hrecord
  obtain hnode : entry.1 = .int node := Except.ok.inj (hid.symm.trans hnode)
  rw [hsource.steady _ _ edge hedge, hnode] at hchildren
  refine ⟨⟨rfl, rfl⟩, fun link => (hattached link).trans (or_congr_right ⟨?_, ?_⟩)⟩
  · rintro ⟨other, hother, childPk, ⟨id, hotherId, hget⟩, rfl⟩
    obtain ⟨child, hchild⟩ := hsource.children _ edge hedge children hchildren other hother
    obtain rfl := Except.ok.inj (hotherId.symm.trans hchild)
    exact ⟨node, child, childPk, hnode, ⟨children, hchildren, other, hother, hchild⟩,
      (hentered.get_iff hids).mp hget, rfl⟩
  · rintro ⟨node', child, childPk, hnode', ⟨children', hchildren', other, hother, hchild⟩, hmem, rfl⟩
    obtain rfl := Value.int.inj (hnode.symm.trans hnode')
    obtain rfl := Except.ok.inj (hchildren.symm.trans hchildren')
    exact ⟨other, hother, childPk, ⟨.int child, hchild, (hentered.get_iff hids).mpr hmem⟩, rfl⟩

theorem entered_of_importWorkflowNodes {records : List Value} (hsource : GraphSource client)
    (hlist : client.getList .workflowNodes = .ok records)
    (hunique : UniqueKeys .workflowNode ctx.db) (hempty : ctx.maps .workflowNode = [])
    (himport : importWorkflowNodes env options client ctx = .ok ctx') :
    Entered env workflowNodes ctx records ctx' ∧ ∀ link, link.relation ∈ edgeFields →
      (link ∈ ctx'.db.links ↔ link ∈ ctx.db.links ∨ ∃ entry ∈ ctx'.maps .workflowNode,
        ∃ edge ∈ edgeFields, AddedFor client ctx'.maps entry edge link) := by
  obtain ⟨middle, hmiddle, hloop⟩ := bind_eq_ok himport
  have hids := hsource.nodes records hlist
  have himporter : importerOf .workflowNodes = some workflowNodes := rfl
  have hentered : Entered env workflowNodes ctx records middle :=
    entered_of_importAll himporter hlist hids hunique hempty hmiddle
  let same (state : Context) : Prop := state.maps = middle.maps ∧ state.db.tables = middle.db.tables
  have hsame : ∀ {state}, same state → Entered env workflowNodes ctx records state := fun hstate =>
    hentered.congr (fun ref => by rw [Database.get?, Database.get?, hstate.2]) hstate.1
  have hadded : same ctx' ∧ ∀ link, link ∈ ctx'.db.links ↔ link ∈ middle.db.links ∨
      ∃ entry ∈ middle.maps .workflowNode, ∃ edge ∈ edgeFields,
        AddedFor client middle.maps entry edge link := by
    apply foldlM_adds same (fun state link => link ∈ state.db.links) _ ⟨rfl, rfl⟩ _ hloop
    intro entry hentry state state' hstate htaken
    have hinner := foldlM_adds same (fun state link => link ∈ state.db.links)
      (AddedFor client middle.maps entry) hstate (fun edge hedge inner inner' hinner hattach => by
        have hmem : entry ∈ inner.maps .workflowNode := by rw [hinner.1]; exact hentry
        obtain ⟨⟨hmaps, htables⟩, hlinks⟩ :=
          addedFor_of_attachAll hsource hids (hsame hinner) hmem hedge hattach
        rw [hinner.1] at hlinks
        exact ⟨⟨hmaps.trans hinner.1, htables.trans hinner.2⟩, hlinks⟩) htaken
    exact hinner
  obtain ⟨hstate, hlinks⟩ := hadded
  refine ⟨hsame hstate, fun link hedge => ?_⟩
  have hfirst : link ∈ middle.db.links ↔ link ∈ ctx.db.links := by
    obtain ⟨_, -, hnodes⟩ := bind_eq_ok hmiddle
    apply foldlM_keeps (fun state => link ∈ state.db.links ↔ link ∈ ctx.db.links) Iff.rfl _ hnodes
    intro state record state' hkept htaken
    cases imports_of_importObject htaken with
    | skipped _ => exact hkept
    | saved _ _ _ _ _ _ _ _ _ _ hold hnew =>
      refine Iff.trans ⟨fun hlink => (hnew link hlink).resolve_right ?_, hold link⟩ hkept
      rintro ⟨attachment, _, hattachment, -⟩
      exact absurd hattachment.symm (Option.some_ne_none attachment)
  rw [hlinks, hfirst, hstate.1]

/-! ## A run -/

/-- The nodes and the edges that a run leaves, in the database and at the source. -/
structure GraphImport (env : Environment) (options : Options) (client : Client) (db : Database)
    (maps : Maps) (ctx : Context) : Prop where
  unique : UniqueKeys .workflowNode ctx.db
  old : ∀ pk key, HasKey .workflowNode db pk key → HasKey .workflowNode ctx.db pk key
  new : ∀ pk key, HasKey .workflowNode ctx.db pk key → HasKey .workflowNode db pk key ∨
    ∃ node, NodeEntry env options client maps node key
  imported : ∀ node key, NodeEntry env options client maps node key →
    ∃ pk, HasKey .workflowNode ctx.db pk key
  nodes : ∀ node pk, (.int node, pk) ∈ ctx.maps .workflowNode ↔
    ∃ key, NodeEntry env options client maps node key ∧ HasKey .workflowNode ctx.db pk key
  edges : ∀ edge ∈ edgeFields, ∀ pk childPk, edgeLink edge pk childPk ∈ ctx.db.links ↔
    edgeLink edge pk childPk ∈ db.links ∨ ∃ node child, (.int node, pk) ∈ ctx.maps .workflowNode ∧
      (.int child, childPk) ∈ ctx.maps .workflowNode ∧ SourceEdge client edge node child
  workflows : ctx.maps .workflowJobTemplate = maps .workflowJobTemplate

theorem graphImport_of_entered {records : List Value} (honly : options.only .workflowNodes = true)
    (hlist : client.getList .workflowNodes = .ok records) (hids : DistinctIds records)
    (hentered : Entered env workflowNodes first records ctx)
    (hlinks : ∀ link, link.relation ∈ edgeFields →
      (link ∈ ctx.db.links ↔ link ∈ first.db.links ∨ ∃ entry ∈ ctx.maps .workflowNode,
        ∃ edge ∈ edgeFields, AddedFor client ctx.maps entry edge link)) :
    GraphImport env options client first.db first.maps ctx := by
  have hentry : ∀ node key, NodeEntry env options client first.maps node key ↔
      ∃ record ∈ records, record.item "id" = .ok (.int node) ∧
        Wants env workflowNodes first.maps record key := by
    intro node key
    constructor
    · rintro ⟨-, records', hlist', hrecord⟩
      obtain rfl := Except.ok.inj (hlist.symm.trans hlist')
      exact hrecord
    · exact fun hrecord => ⟨honly, records, hlist, hrecord⟩
  refine ⟨hentered.unique, hentered.old, fun pk key hkey => ?_, fun node key hnode => ?_,
    fun node pk => ?_, fun edge hedge pk childPk => ?_, hentered.maps _ Kind.noConfusion⟩
  · apply (hentered.new pk key hkey).imp_right
    rintro ⟨record, hrecord, hwants⟩
    obtain ⟨node, hnode⟩ := hids.number record hrecord
    exact ⟨node, (hentry node key).mpr ⟨record, hrecord, hnode, hwants⟩⟩
  · obtain ⟨record, hrecord, -, hwants⟩ := (hentry node key).mp hnode
    exact hentered.imported record hrecord key hwants
  · simp only [hentry]
    apply (hentered.entries (.int node) pk).trans
    constructor
    · rintro ⟨record, hrecord, key, hid, hwants, hkey⟩
      exact ⟨key, ⟨record, hrecord, hid, hwants⟩, hkey⟩
    · rintro ⟨key, ⟨record, hrecord, hid, hwants⟩, hkey⟩
      exact ⟨record, hrecord, key, hid, hwants, hkey⟩
  · rw [hlinks _ hedge]
    apply or_congr_right
    constructor
    · rintro ⟨⟨id, pk'⟩, hmem, edge', -, node, child, childPk', hnode, hsource, hchild, hlink⟩
      obtain rfl : id = .int node := hnode
      obtain ⟨rfl, rfl, rfl⟩ : edge = edge' ∧ pk = pk' ∧ childPk = childPk' := by
        simpa [edgeLink] using hlink
      exact ⟨node, child, hmem, hchild, hsource⟩
    · rintro ⟨node, child, hmem, hchild, hsource⟩
      exact ⟨(.int node, pk), hmem, edge, hedge, node, child, childPk, rfl, hsource, hchild, rfl⟩

theorem graphImport_of_skipped (honly : options.only .workflowNodes ≠ true)
    (hunique : UniqueKeys .workflowNode ctx.db) (hempty : ctx.maps .workflowNode = []) :
    GraphImport env options client ctx.db ctx.maps ctx := by
  have hnone : ∀ node key, ¬NodeEntry env options client ctx.maps node key :=
    fun _ _ hentry => honly hentry.1
  refine ⟨hunique, fun _ _ hkey => hkey, fun _ _ hkey => Or.inl hkey,
    fun node key hentry => absurd hentry (hnone node key), fun node pk => ?_,
    fun edge _ pk childPk => ?_, rfl⟩
  · rw [hempty]
    refine iff_of_false List.not_mem_nil ?_
    rintro ⟨key, hentry, -⟩
    exact hnone node key hentry
  · rw [hempty]
    refine ⟨Or.inl, fun hlink => hlink.resolve_right ?_⟩
    rintro ⟨_, _, hmem, -⟩
    exact List.not_mem_nil hmem

theorem graphImport_of_runImport (hsource : GraphSource client)
    (hunique : UniqueKeys .workflowNode db)
    (hfirst : entry env options client .workflowNodes db = .ok first)
    (hrun : runImport env options client db = .ok ctx) :
    GraphImport env options client db first.maps ctx := by
  obtain ⟨first', second, hfirst', hsecond, hrest⟩ := runImport_split .workflowNodes hrun
  obtain rfl := Except.ok.inj (hfirst.symm.trans hfirst')
  have hroles : Resource.workflowNodes ≠ .roles := Resource.noConfusion
  have husers : Resource.workflowNodes ≠ .users := Resource.noConfusion
  have hrows : ∀ pk key, HasKey .workflowNode first.db pk key ↔ HasKey .workflowNode db pk key :=
    fun pk _ => hasKey_congr (get?_entry hroles hfirst pk)
  have hfirstLinks : ∀ link, link.relation ∈ edgeFields → (link ∈ first.db.links ↔ link ∈ db.links) :=
    fun link hedge => importResources_edge_iff (by decide) hedge hfirst
  have hempty : first.maps .workflowNode = [] := importResources_maps (by decide) hfirst
  have hunique' : UniqueKeys .workflowNode first.db := by
    simp only [UniqueKeys, hrows]
    exact hunique
  have hsecondImport : GraphImport env options client first.db first.maps second := by
    by_cases honly : options.only .workflowNodes = true
    · rw [if_pos honly] at hsecond
      obtain ⟨middle, hmiddle, -⟩ := bind_eq_ok hsecond
      obtain ⟨records, hlist, -⟩ := bind_eq_ok hmiddle
      obtain ⟨hentered, hlinks⟩ :=
        entered_of_importWorkflowNodes hsource hlist hunique' hempty hsecond
      exact graphImport_of_entered honly hlist (hsource.nodes records hlist) hentered hlinks
    · rw [if_neg honly] at hsecond
      obtain rfl := Except.ok.inj hsecond
      exact graphImport_of_skipped honly hunique' hempty
  have hlast : ∀ pk key, HasKey .workflowNode ctx.db pk key ↔ HasKey .workflowNode second.db pk key :=
    fun pk _ => hasKey_congr (get?_later husers hrest pk)
  have hnodes : ctx.maps .workflowNode = second.maps .workflowNode :=
    importResources_maps (by decide) hrest
  have hworkflows : ctx.maps .workflowJobTemplate = second.maps .workflowJobTemplate :=
    importResources_maps (by decide) hrest
  have hlastLinks : ∀ link, link.relation ∈ edgeFields →
      (link ∈ ctx.db.links ↔ link ∈ second.db.links) :=
    fun link hedge => importResources_edge_iff (by decide) hedge hrest
  constructor
  · simp only [UniqueKeys, hlast]
    exact hsecondImport.unique
  · simp only [hlast, ← hrows]
    exact hsecondImport.old
  · simp only [hlast, ← hrows]
    exact hsecondImport.new
  · simp only [hlast]
    exact hsecondImport.imported
  · simp only [hlast, hnodes]
    exact hsecondImport.nodes
  · intro edge hedge pk childPk
    rw [hlastLinks _ hedge, ← hfirstLinks _ hedge, hnodes]
    exact hsecondImport.edges edge hedge pk childPk
  · exact hworkflows.trans hsecondImport.workflows

end Forail.Migration
