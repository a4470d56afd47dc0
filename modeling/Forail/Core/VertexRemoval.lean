import Mathlib.Data.Finset.Prod
import Mathlib.Data.Finset.Image
import Mathlib.Logic.Relation

/-!
# Removing vertices that hand over what they hold

A vertex of a graph holds children and members.  When it is removed, its parents get what
it held.  After several removals a vertex holds what it reached through removed vertices,
and nothing else.
-/

namespace Forail.VertexRemoval

variable {V H X : Type*}

/-- What a vertex holds, directly or through removed vertices. -/
inductive Through (edge : V → V → Prop) (removed : V → Prop) (holds : V → X → Prop) :
    V → X → Prop where
  | direct {vertex : V} {item : X} (hholds : holds vertex item) :
      Through edge removed holds vertex item
  | via {vertex next : V} {item : X} (hedge : edge vertex next) (hremoved : removed next)
      (hrest : Through edge removed holds next item) : Through edge removed holds vertex item

variable {vertex parent child : V}

theorem Through.exists_first {edge : V → V → Prop} {removed : V → Prop}
    (hthrough : Through edge removed edge parent child) : ∃ next, edge parent next := by
  cases hthrough with
  | direct hedge => exact ⟨_, hedge⟩
  | via hedge _ _ => exact ⟨_, hedge⟩

/-- Who holds something through removed vertices holds it or has an edge, and something is
held. -/
theorem Through.ends {edge : V → V → Prop} {removed : V → Prop} {holds : V → X → Prop}
    {item : X} (hthrough : Through edge removed holds vertex item) :
    (holds vertex item ∨ ∃ next, edge vertex next) ∧ ∃ holder, holds holder item := by
  induction hthrough with
  | direct hholds => exact ⟨.inl hholds, ⟨_, hholds⟩⟩
  | via hedge _ _ ih => exact ⟨.inr ⟨_, hedge⟩, ih.2⟩

theorem through_and_iff {edge : V → V → Prop} {removed : V → Prop} {holds : V → X → Prop}
    {property : X → Prop} {item : X} :
    Through edge removed (fun vertex item => holds vertex item ∧ property item) vertex item ↔
      Through edge removed holds vertex item ∧ property item := by
  constructor
  · intro hthrough
    induction hthrough with
    | direct hholds => exact ⟨.direct hholds.1, hholds.2⟩
    | via hedge hremoved _ ih => exact ⟨.via hedge hremoved ih.1, ih.2⟩
  · rintro ⟨hthrough, hitem⟩
    induction hthrough with
    | direct hholds => exact .direct ⟨hholds, hitem⟩
    | via hedge hremoved _ ih => exact .via hedge hremoved (ih hitem)

theorem through_false_iff {edge : V → V → Prop} {removed : V → Prop} {holds : V → X → Prop}
    {item : X} (hnone : ∀ vertex, ¬ removed vertex) :
    Through edge removed holds vertex item ↔ holds vertex item := by
  constructor
  · intro hthrough
    cases hthrough with
    | direct hholds => exact hholds
    | via _ hremoved _ => exact absurd hremoved (hnone _)
  · exact .direct

/-! ## Reachability past one vertex -/

open Relation

/-- The edges between other vertices, and those from its sources to its targets. -/
def Bypass (edge : V → V → Prop) (vertex source target : V) : Prop :=
  source ≠ vertex ∧ target ≠ vertex ∧ (edge source target ∨ edge source vertex ∧ edge vertex target)

/-- What the other vertices hold, and what the vertex held for its sources. -/
def HandsOver (edge : V → V → Prop) (holds : V → X → Prop) (vertex source : V) (item : X) : Prop :=
  source ≠ vertex ∧ (holds source item ∨ edge source vertex ∧ holds vertex item)

section

variable {edge : V → V → Prop} {source target : V}

theorem transGen_of_bypass (hpath : TransGen (Bypass edge vertex) source target) :
    TransGen edge source target := by
  have hstep : ∀ source target, Bypass edge vertex source target → TransGen edge source target := by
    rintro source target ⟨-, -, hedge | ⟨hfirst, hsecond⟩⟩
    · exact .single hedge
    · exact .tail (.single hfirst) hsecond
  induction hpath with
  | single hedge => exact hstep _ _ hedge
  | tail _ hedge ih => exact ih.trans (hstep _ _ hedge)

/-- A path from another vertex stays with the others, or comes to the vertex from one of them. -/
theorem bypass_of_transGen (hsource : source ≠ vertex) (hpath : TransGen edge source target) :
    (target ≠ vertex → TransGen (Bypass edge vertex) source target) ∧
      (target = vertex → ∃ last, ReflTransGen (Bypass edge vertex) source last ∧
        last ≠ vertex ∧ edge last vertex) := by
  induction hpath with
  | single hedge =>
    refine ⟨fun htarget => .single ⟨hsource, htarget, .inl hedge⟩, ?_⟩
    rintro rfl
    exact ⟨source, .refl, hsource, hedge⟩
  | @tail middle target _ hedge ih =>
    by_cases hmiddle : middle = vertex
    · obtain ⟨last, hpath, hlast, hlink⟩ := ih.2 hmiddle
      subst hmiddle
      exact ⟨fun htarget => .tail' hpath ⟨hlast, htarget, .inr ⟨hlink, hedge⟩⟩,
        fun _ => ⟨last, hpath, hlast, hlink⟩⟩
    · refine ⟨fun htarget => (ih.1 hmiddle).tail ⟨hmiddle, htarget, .inl hedge⟩, ?_⟩
      rintro rfl
      exact ⟨middle, (ih.1 hmiddle).to_reflTransGen, hmiddle, hedge⟩

theorem transGen_bypass_iff (hsource : source ≠ vertex) (htarget : target ≠ vertex) :
    TransGen (Bypass edge vertex) source target ↔ TransGen edge source target :=
  ⟨transGen_of_bypass, fun hpath => (bypass_of_transGen hsource hpath).1 htarget⟩

theorem exists_holder_bypass_iff {holds : V → X → Prop} {item : X} (hsource : source ≠ vertex) :
    (∃ holder, ReflTransGen (Bypass edge vertex) source holder ∧
      HandsOver edge holds vertex holder item) ↔
      ∃ holder, ReflTransGen edge source holder ∧ holds holder item := by
  constructor
  · rintro ⟨holder, hpath, -, hheld⟩
    have hpath' : ReflTransGen edge source holder := by
      cases reflTransGen_iff_eq_or_transGen.mp hpath with
      | inl hsame => exact hsame ▸ .refl
      | inr hsteps => exact (transGen_of_bypass hsteps).to_reflTransGen
    cases hheld with
    | inl hheld => exact ⟨holder, hpath', hheld⟩
    | inr hheld => exact ⟨vertex, hpath'.tail hheld.1, hheld.2⟩
  · rintro ⟨holder, hpath, hheld⟩
    cases reflTransGen_iff_eq_or_transGen.mp hpath with
    | inl hsame =>
      subst hsame
      exact ⟨holder, .refl, hsource, .inl hheld⟩
    | inr hsteps =>
      obtain ⟨hother, hvertex⟩ := bypass_of_transGen hsource hsteps
      by_cases hholder : holder = vertex
      · obtain ⟨last, hpath, hlast, hlink⟩ := hvertex hholder
        exact ⟨last, hpath, hlast, .inr ⟨hlink, hholder ▸ hheld⟩⟩
      · exact ⟨holder, (hother hholder).to_reflTransGen, hholder, .inl hheld⟩

end

variable [DecidableEq V]

structure MemberGraph (V H : Type*) where
  vertices : Finset V
  edges : Finset (V × V)
  members : Finset (V × H)

namespace MemberGraph

section

variable (graph : MemberGraph V H) (vertex : V)

/-- The other vertices that lead to `vertex`. -/
def parents : Finset V :=
  (graph.edges.filter fun edge => edge.2 = vertex ∧ edge.1 ≠ vertex).image Prod.fst

def children : Finset V :=
  (graph.edges.filter fun edge => edge.1 = vertex ∧ edge.2 ∈ graph.vertices).image Prod.snd

end

variable [DecidableEq H] (graph : MemberGraph V H) (vertex : V)

def held : Finset H := (graph.members.filter fun entry => entry.1 = vertex).image Prod.snd

def remove : MemberGraph V H where
  vertices := graph.vertices.erase vertex
  edges :=
    graph.edges.filter (fun edge => edge.1 ≠ vertex ∧ edge.2 ≠ vertex) ∪
      graph.parents vertex ×ˢ graph.children vertex
  members :=
    graph.members.filter (fun entry => entry.1 ≠ vertex) ∪
      graph.parents vertex ×ˢ graph.held vertex

end MemberGraph

variable {graph : MemberGraph V H} {member : H} {vertices : List V}

theorem mem_parents : parent ∈ graph.parents vertex ↔ (parent, vertex) ∈ graph.edges ∧
    parent ≠ vertex := by
  simp [MemberGraph.parents]

theorem mem_children : child ∈ graph.children vertex ↔ (vertex, child) ∈ graph.edges ∧
    child ∈ graph.vertices := by
  simp [MemberGraph.children]

variable [DecidableEq H]

theorem mem_held : member ∈ graph.held vertex ↔ (vertex, member) ∈ graph.members := by
  simp [MemberGraph.held]

theorem mem_edges_remove : (parent, child) ∈ (graph.remove vertex).edges ↔
    ((parent, child) ∈ graph.edges ∧ parent ≠ vertex ∧ child ≠ vertex) ∨
      (((parent, vertex) ∈ graph.edges ∧ parent ≠ vertex) ∧
        (vertex, child) ∈ graph.edges ∧ child ∈ graph.vertices) := by
  rw [MemberGraph.remove, Finset.mem_union, Finset.mem_filter, Finset.mem_product, mem_parents,
    mem_children]

theorem mem_members_remove : (parent, member) ∈ (graph.remove vertex).members ↔
    ((parent, member) ∈ graph.members ∧ parent ≠ vertex) ∨
      (((parent, vertex) ∈ graph.edges ∧ parent ≠ vertex) ∧
        (vertex, member) ∈ graph.members) := by
  rw [MemberGraph.remove, Finset.mem_union, Finset.mem_filter, Finset.mem_product, mem_parents, mem_held]

/-- What is held through removed vertices after the removal of one more vertex was held
through removed vertices before. -/
theorem Through.of_remove {holds holds' : V → X → Prop} {item : X}
    (hholds : ∀ vertex' item, holds' vertex' item → holds vertex' item ∨
      ((vertex', vertex) ∈ graph.edges ∧ holds vertex item))
    (hthrough : Through (fun source target => (source, target) ∈ (graph.remove vertex).edges)
      (· ∈ vertices) holds' parent item) :
    Through (fun source target => (source, target) ∈ graph.edges) (· ∈ vertex :: vertices) holds
      parent item := by
  induction hthrough with
  | direct hheld =>
    rcases hholds _ _ hheld with hdirect | ⟨hedge, hrest⟩
    · exact .direct hdirect
    · exact .via hedge List.mem_cons_self (.direct hrest)
  | via hedge hremoved _ ih =>
    have hnext := List.mem_cons_of_mem vertex hremoved
    rcases mem_edges_remove.mp hedge with ⟨hold, -, -⟩ | ⟨⟨hfirst, -⟩, hsecond, -⟩
    · exact .via hold hnext ih
    · exact .via hfirst List.mem_cons_self (.via hsecond hnext ih)

/-- The parents of the vertex get what it held through the other removed vertices, and
other vertices keep it. -/
theorem Through.remove {holds holds' : V → X → Prop} {item : X}
    (hvertices : ∀ other ∈ vertices, other ∈ graph.vertices)
    (hkept : ∀ source, source ≠ vertex → holds source item → holds' source item)
    (hgiven : ∀ source, source ≠ vertex → (source, vertex) ∈ graph.edges → holds vertex item →
      holds' source item)
    (hthrough : Through (fun source target => (source, target) ∈ graph.edges)
      (· ∈ vertex :: vertices) holds parent item) :
    (parent ≠ vertex → Through (fun source target => (source, target) ∈
      (graph.remove vertex).edges) (· ∈ vertices) holds' parent item) ∧
    (parent = vertex → ∀ source, source ≠ vertex → (source, vertex) ∈ graph.edges →
      Through (fun source target => (source, target) ∈ (graph.remove vertex).edges)
        (· ∈ vertices) holds' source item) := by
  induction hthrough with
  | direct hheld =>
    constructor
    · exact fun hne => .direct (hkept _ hne hheld)
    · rintro rfl source hne hedge
      exact .direct (hgiven source hne hedge hheld)
  | @via current next _ hedge hremoved _ ih =>
    have ih := ih hkept hgiven
    constructor
    · intro hne
      by_cases hnext : next = vertex
      · exact ih.2 hnext current hne (hnext ▸ hedge)
      · have hlater := (List.mem_cons.mp hremoved).resolve_left hnext
        exact .via (mem_edges_remove.mpr (.inl ⟨hedge, hne, hnext⟩)) hlater (ih.1 hnext)
    · rintro rfl source hne hparent
      by_cases hnext : next = current
      · exact ih.2 hnext source hne hparent
      · have hlater := (List.mem_cons.mp hremoved).resolve_left hnext
        have hgone := mem_edges_remove.mpr
          (.inr ⟨⟨hparent, hne⟩, hedge, hvertices next hlater⟩)
        exact .via hgone hlater (ih.1 hnext)

theorem vertices_remove (hnodup : (vertex :: vertices).Nodup)
    (hvertices : ∀ other ∈ vertex :: vertices, other ∈ graph.vertices) :
    ∀ other ∈ vertices, other ∈ (graph.remove vertex).vertices := by
  intro other hother
  have hne : other ≠ vertex := fun hsame => (List.nodup_cons.mp hnodup).1 (hsame ▸ hother)
  exact Finset.mem_erase.mpr ⟨hne, hvertices other (List.mem_cons_of_mem _ hother)⟩

/-- The members of a vertex that is left are its own and those it reached through removed
vertices. -/
theorem mem_members_foldl (hnodup : vertices.Nodup)
    (hvertices : ∀ vertex ∈ vertices, vertex ∈ graph.vertices) :
    (parent, member) ∈ (vertices.foldl MemberGraph.remove graph).members ↔
      parent ∉ vertices ∧
        Through (fun source target => (source, target) ∈ graph.edges) (· ∈ vertices)
          (fun vertex item => (vertex, item) ∈ graph.members) parent member := by
  induction vertices generalizing graph with
  | nil =>
    constructor
    · exact fun hmem => ⟨List.not_mem_nil, .direct hmem⟩
    · rintro ⟨-, hthrough⟩
      cases hthrough with
      | direct hheld => exact hheld
      | via _ hremoved _ => exact absurd hremoved List.not_mem_nil
  | cons vertex vertices ih =>
    rw [List.foldl_cons, ih hnodup.of_cons (vertices_remove hnodup hvertices), List.mem_cons,
      not_or]
    constructor
    · rintro ⟨hparent, hthrough⟩
      have hne : parent ≠ vertex := by
        rintro rfl
        cases hthrough with
        | direct hheld =>
          rcases mem_members_remove.mp hheld with ⟨-, hne⟩ | ⟨⟨-, hne⟩, -⟩ <;> exact hne rfl
        | via hedge _ _ =>
          rcases mem_edges_remove.mp hedge with ⟨-, hne, -⟩ | ⟨⟨-, hne⟩, -⟩ <;> exact hne rfl
      refine ⟨⟨hne, hparent⟩, Through.of_remove ?_ hthrough⟩
      intro vertex' item hheld
      rcases mem_members_remove.mp hheld with ⟨hdirect, -⟩ | ⟨⟨hedge, -⟩, hheld⟩
      · exact .inl hdirect
      · exact .inr ⟨hedge, hheld⟩
    · rintro ⟨⟨hne, hparent⟩, hthrough⟩
      refine ⟨hparent, (Through.remove ?_ ?_ ?_ hthrough).1 hne⟩
      · exact fun other hother => hvertices other (List.mem_cons_of_mem _ hother)
      · exact fun source hsource hheld => mem_members_remove.mpr (.inl ⟨hheld, hsource⟩)
      · exact fun source hsource hedge hheld =>
          mem_members_remove.mpr (.inr ⟨⟨hedge, hsource⟩, hheld⟩)

theorem mem_edges_foldl (hnodup : vertices.Nodup)
    (hvertices : ∀ vertex ∈ vertices, vertex ∈ graph.vertices) (hchild : child ∉ vertices)
    (hin : child ∈ graph.vertices) :
    (parent, child) ∈ (vertices.foldl MemberGraph.remove graph).edges ↔
      parent ∉ vertices ∧
        Through (fun source target => (source, target) ∈ graph.edges) (· ∈ vertices)
          (fun source target => (source, target) ∈ graph.edges) parent child := by
  induction vertices generalizing graph with
  | nil =>
    constructor
    · exact fun hmem => ⟨List.not_mem_nil, .direct hmem⟩
    · rintro ⟨-, hthrough⟩
      cases hthrough with
      | direct hheld => exact hheld
      | via _ hremoved _ => exact absurd hremoved List.not_mem_nil
  | cons vertex vertices ih =>
    rw [List.mem_cons, not_or] at hchild
    have hin' : child ∈ (graph.remove vertex).vertices := Finset.mem_erase.mpr ⟨hchild.1, hin⟩
    rw [List.foldl_cons,
      ih hnodup.of_cons (vertices_remove hnodup hvertices) hchild.2 hin', List.mem_cons, not_or]
    constructor
    · rintro ⟨hparent, hthrough⟩
      have hne : parent ≠ vertex := by
        rintro rfl
        obtain ⟨next, hedge⟩ := hthrough.exists_first
        rcases mem_edges_remove.mp hedge with ⟨-, hne, -⟩ | ⟨⟨-, hne⟩, -⟩ <;> exact hne rfl
      refine ⟨⟨hne, hparent⟩, Through.of_remove ?_ hthrough⟩
      intro source target hedge
      rcases mem_edges_remove.mp hedge with ⟨hdirect, -⟩ | ⟨⟨hfirst, -⟩, hsecond, -⟩
      · exact .inl hdirect
      · exact .inr ⟨hfirst, hsecond⟩
    · rintro ⟨⟨hne, hparent⟩, hthrough⟩
      refine ⟨hparent, (Through.remove ?_ ?_ ?_ hthrough).1 hne⟩
      · exact fun other hother => hvertices other (List.mem_cons_of_mem _ hother)
      · exact fun source hsource hedge =>
          mem_edges_remove.mpr (.inl ⟨hedge, hsource, hchild.1⟩)
      · exact fun source hsource hfirst hsecond =>
          mem_edges_remove.mpr (.inr ⟨⟨hfirst, hsource⟩, hsecond, hin⟩)

theorem mem_vertices_foldl : vertex ∈ (vertices.foldl MemberGraph.remove graph).vertices ↔
    vertex ∈ graph.vertices ∧ vertex ∉ vertices := by
  induction vertices generalizing graph with
  | nil => exact ⟨fun hmem => ⟨hmem, List.not_mem_nil⟩, And.left⟩
  | cons first vertices ih =>
    rw [List.foldl_cons, ih, MemberGraph.remove, Finset.mem_erase, List.mem_cons, not_or]
    exact ⟨fun ⟨⟨hne, hmem⟩, hrest⟩ => ⟨hmem, hne, hrest⟩,
      fun ⟨hmem, hne, hrest⟩ => ⟨⟨hne, hmem⟩, hrest⟩⟩

theorem ends_of_mem_edges_foldl (hmem : (parent, child) ∈ (vertices.foldl MemberGraph.remove graph).edges) :
    (∃ target, (parent, target) ∈ graph.edges) ∧ ∃ source, (source, child) ∈ graph.edges := by
  induction vertices generalizing graph with
  | nil => exact ⟨⟨child, hmem⟩, ⟨parent, hmem⟩⟩
  | cons vertex vertices ih =>
    obtain ⟨⟨target, htarget⟩, ⟨source, hsource⟩⟩ := ih hmem
    constructor
    · rcases mem_edges_remove.mp htarget with ⟨hedge, -⟩ | ⟨⟨hedge, -⟩, -⟩
      · exact ⟨target, hedge⟩
      · exact ⟨vertex, hedge⟩
    · rcases mem_edges_remove.mp hsource with ⟨hedge, -⟩ | ⟨-, hedge, -⟩
      · exact ⟨source, hedge⟩
      · exact ⟨vertex, hedge⟩

theorem mem_edges_foldl_of_gone (hvertices : child ∉ vertices) (hgone : child ∉ graph.vertices) :
    (parent, child) ∈ (vertices.foldl MemberGraph.remove graph).edges ↔
      (parent, child) ∈ graph.edges ∧ parent ∉ vertices := by
  induction vertices generalizing graph with
  | nil => exact ⟨fun hmem => ⟨hmem, List.not_mem_nil⟩, And.left⟩
  | cons vertex vertices ih =>
    rw [List.mem_cons, not_or] at hvertices
    have hgone' : child ∉ (graph.remove vertex).vertices :=
      fun hmem => hgone (Finset.mem_of_mem_erase hmem)
    rw [List.foldl_cons, ih hvertices.2 hgone', mem_edges_remove, List.mem_cons, not_or]
    constructor
    · rintro ⟨⟨hedge, hne, -⟩ | ⟨-, -, hin⟩, hparent⟩
      · exact ⟨hedge, hne, hparent⟩
      · exact absurd hin hgone
    · rintro ⟨hedge, hne, hparent⟩
      exact ⟨.inl ⟨hedge, hne, hvertices.1⟩, hparent⟩

/-- An edge to a removed vertex is left when the vertex was its own child as it was removed. -/
theorem mem_edges_foldl_of_loop {earlier later : List V}
    (hnodup : (earlier ++ child :: later).Nodup)
    (hvertices : ∀ vertex ∈ earlier ++ child :: later, vertex ∈ graph.vertices) :
    (parent, child) ∈ ((earlier ++ child :: later).foldl MemberGraph.remove graph).edges ↔
      parent ∉ earlier ++ child :: later ∧
        Through (fun source target => (source, target) ∈ graph.edges) (· ∈ earlier)
          (fun source target => (source, target) ∈ graph.edges) child child ∧
        Through (fun source target => (source, target) ∈ graph.edges) (· ∈ earlier)
          (fun source target => (source, target) ∈ graph.edges) parent child := by
  obtain ⟨hearlier, hrest, hdisjoint⟩ := List.nodup_append.mp hnodup
  have hchild : child ∉ earlier := fun hmem => hdisjoint child hmem child List.mem_cons_self rfl
  have hin : child ∈ graph.vertices :=
    hvertices child (List.mem_append_right _ List.mem_cons_self)
  have hedges : ∀ source : V, (source, child) ∈ (earlier.foldl MemberGraph.remove graph).edges ↔
      source ∉ earlier ∧
        Through (fun source target => (source, target) ∈ graph.edges) (· ∈ earlier)
          (fun source target => (source, target) ∈ graph.edges) source child :=
    fun source => mem_edges_foldl hearlier
      (fun vertex hvertex => hvertices vertex (List.mem_append_left _ hvertex)) hchild hin
  have hgone : child ∉ ((earlier.foldl MemberGraph.remove graph).remove child).vertices :=
    Finset.notMem_erase child _
  have hleft : child ∈ (earlier.foldl MemberGraph.remove graph).vertices :=
    mem_vertices_foldl.mpr ⟨hin, hchild⟩
  rw [List.foldl_append, List.foldl_cons,
    mem_edges_foldl_of_gone (List.nodup_cons.mp hrest).1 hgone, mem_edges_remove, hedges, hedges,
    List.mem_append, List.mem_cons, not_or, not_or]
  constructor
  · rintro ⟨⟨-, -, hne⟩ | ⟨⟨⟨hparent, hway⟩, hne⟩, ⟨-, hloop⟩, -⟩, hlater⟩
    · exact absurd rfl hne
    · exact ⟨⟨hparent, hne, hlater⟩, hloop, hway⟩
  · rintro ⟨⟨hparent, hne, hlater⟩, hloop, hway⟩
    exact ⟨.inr ⟨⟨⟨hparent, hway⟩, hne⟩, ⟨hchild, hloop⟩, hleft⟩, hlater⟩

end Forail.VertexRemoval
